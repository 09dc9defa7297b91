/-
Integers as plain scalars. Their decimal text may stand without quotes, resolves
to something other than text, and is read as the integer.
-/
import ApiScaffold.Proofs.Json.Token
import ApiScaffold.Proofs.Text.Character
import ApiScaffold.Proofs.Text.LetterCase
import ApiScaffold.Proofs.Text.Pattern
import ApiScaffold.Proofs.Yaml.Reader
import ApiScaffold.Yaml.Printer

namespace ApiScaffold.Yaml

open Json (intText)

theorem mem_digits {c : Char} (h : c.isDigit = true) : c ∈ "0123456789".toList := by
  have hall : ∀ c : Char, c.toNat < 128 → c.isDigit = true → c ∈ "0123456789".toList :=
    forall_char_below (by decide)
  refine hall c ?_ h
  have hnine : c.toNat ≤ 57 := (Char.isDigit_iff_toNat.mp h).2
  omega

/-- What holds of every digit. -/
theorem forall_digit {P : Char → Prop} [DecidablePred P]
    (h : "0123456789".toList.all (fun c => decide (P c)) = true) {c : Char}
    (hc : c.isDigit = true) : P c :=
  forall_mem_of_all h c (mem_digits hc)

-- ============================================================== resolution

/-- A decimal numeral behind an optional sign is an integer to the resolver. -/
theorem integers_accepts {s : List Char} (hs : sign.accepts s = true) (n : Nat) :
    integers.accepts (s ++ decimal n) = true := by
  refine Pattern.accepts_andThen hs ?_
  rw [Pattern.accepts_anyOf]
  by_cases hn : n = 0
  · subst hn
    rfl
  · obtain ⟨c, cs, hcs, hdigit, hzero⟩ := exists_decimal_cons n
    have hfirst : (Pattern.among "123456789").accepts [c] = true := by
      exact forall_digit (P := fun d => d ≠ '0' → (Pattern.among "123456789").accepts [d] = true)
        (by decide) hdigit (hzero hn)
    have hrest : (Pattern.many digitOrScore).accepts cs = true := by
      refine Pattern.accepts_many fun d hd =>
        forall_digit (P := fun d => digitOrScore.accepts [d] = true) (by decide) ?_
      exact isDigit_of_mem_decimal (n := n) (by rw [hcs]; simp [hd])
    have hnumeral := Pattern.accepts_andThen hfirst hrest
    rw [hcs]
    refine List.any_eq_true.mpr ⟨_, ?_, hnumeral⟩
    exact .tail _ (.tail _ (.tail _ (.head _)))

theorem isImplicit_intText (n : Int) : isImplicit (intText n) = true := by
  have hintegers : integers.accepts (intText n) = true := by
    unfold intText
    split
    · exact integers_accepts (s := ['-']) (by decide) n.natAbs
    · exact integers_accepts (s := []) (by decide) n.natAbs
  unfold isImplicit implicits
  rw [Pattern.accepts_anyOf]
  exact List.any_eq_true.mpr ⟨integers, .tail _ (.tail _ (.head _)), hintegers⟩

theorem natural?_decimal {n : Nat} (h : n < 10 ^ digitLimit) :
    natural? (decimal n) = some n := by
  have hdigits : (decimal n).filter Char.isDigit = decimal n :=
    List.filter_eq_self.mpr fun c hc => isDigit_of_mem_decimal hc
  have hnumeral : isNumeral (decimal n) = true := by
    by_cases hn : n = 0
    · subst hn
      rfl
    · obtain ⟨c, cs, hcs, hdigit, hzero⟩ := exists_decimal_cons n
      have hrest : cs.all (fun d => d.isDigit || d = '_') = true := by
        rw [List.all_eq_true]
        intro d hd
        have hd' : d.isDigit = true :=
          isDigit_of_mem_decimal (n := n) (by rw [hcs]; simp [hd])
        rw [hd']
        rfl
      rw [hcs, isNumeral, hdigit, hrest]
      · rfl
      · exact hzero hn
  have hlength : (decimal n).length ≤ digitLimit :=
    (Nat.length_toDigits_le_iff (by decide) (by decide)).mpr h
  unfold natural?
  simp only
  rw [hdigits, hnumeral, decide_eq_true hlength, ofDecimal_decimal]
  rfl

/-- The decimal text of an integer within the limit is read as the integer. -/
theorem plainValue?_intText {n : Int} (h : n.natAbs < 10 ^ digitLimit) :
    plainValue? (intText n) = some (.int n) := by
  have hread : decimal? (intText n) = some n := by
    unfold intText
    split
    next hneg =>
      rw [decimal?, natural?_decimal h]
      show some (-(n.natAbs : Int)) = some n
      congr 1
      omega
    next hpos =>
      obtain ⟨c, cs, hcs, hdigit, -⟩ := exists_decimal_cons n.natAbs
      have hdash : c ≠ '-' := forall_digit (P := (· ≠ '-')) (by decide) hdigit
      have hplus : c ≠ '+' := forall_digit (P := (· ≠ '+')) (by decide) hdigit
      have hnatural := natural?_decimal h
      rw [hcs] at hnatural ⊢
      rw [decimal?, hnatural]
      · show some (n.natAbs : Int) = some n
        congr 1
        omega
      · rintro s ⟨⟩
        exact hdash rfl
      · rintro s ⟨⟩
        exact hplus rfl
  unfold plainValue?
  rw [isImplicit_intText, hread]
  rfl

-- ================================================================= style

theorem holdsStructure_of_digits {s : List Char} (h : ∀ c ∈ s, c.isDigit = true)
    (spaced : Bool) : holdsStructure spaced s = false := by
  induction s generalizing spaced with
  | nil => rfl
  | cons c s ih =>
      have hc : c.isDigit = true := h c (by simp)
      have hcolon : c ≠ ':' := forall_digit (P := (· ≠ ':')) (by decide) hc
      have hhash : c ≠ '#' := forall_digit (P := (· ≠ '#')) (by decide) hc
      rw [holdsStructure, decide_eq_false hcolon, decide_eq_false hhash,
        ih fun d hd => h d (by simp [hd])]
      rfl

/-- A digit, with digits and perhaps a minus sign before it, starts no
structure. -/
theorem startsLikeStructure_of_digit {c d : Char} {s : List Char}
    (hc : c = '-' ∨ c.isDigit = true) (hd : d.isDigit = true) :
    startsLikeStructure (c :: d :: s) = false := by
  have hsecond : d ≠ '-' ∧ d ≠ '.' ∧ isSeparator d = false :=
    forall_digit (P := fun d => d ≠ '-' ∧ d ≠ '.' ∧ isSeparator d = false) (by decide) hd
  have hfirst : leadingIndicators.contains c = false := by
    rcases hc with rfl | hc
    · decide
    · exact forall_digit (P := fun c => leadingIndicators.contains c = false) (by decide) hc
  have hmark : ∀ {x y : Char} {xs}, y ≠ d → (x :: y :: xs).isPrefixOf (c :: d :: s) = false := by
    intro x y xs hne
    rw [List.isPrefixOf, List.isPrefixOf, beq_false_of_ne hne, Bool.false_and, Bool.and_false]
  have hdash : "---".toList.isPrefixOf (c :: d :: s) = false := hmark hsecond.1.symm
  have hdots : "...".toList.isPrefixOf (c :: d :: s) = false := hmark hsecond.2.1.symm
  have hends : endsToken (d :: s) = false := hsecond.2.2
  unfold startsLikeStructure
  rw [hdash, hdots]
  simp only
  rw [hfirst, hends, Bool.and_false]
  rfl

/-- A numeral behind an optional minus sign needs no quotes. -/
theorem allowsPlain_intText (n : Int) : allowsPlain (intText n) = true := by
  obtain ⟨d, ds, hds, hdigit, -⟩ := exists_decimal_cons n.natAbs
  have hall : ∀ c ∈ d :: ds, c.isDigit = true := by
    intro c hc
    rw [← hds] at hc
    exact isDigit_of_mem_decimal hc
  obtain ⟨c, s, hcs, hc, hs, hstart⟩ : ∃ c s, intText n = c :: s
      ∧ (c = '-' ∨ c.isDigit = true) ∧ (∀ e ∈ s, e.isDigit = true)
      ∧ startsLikeStructure (c :: s) = false := by
    unfold intText
    rw [hds]
    split
    · exact ⟨_, _, rfl, .inl rfl, hall, startsLikeStructure_of_digit (.inl rfl) hdigit⟩
    · refine ⟨_, _, rfl, .inr hdigit, fun e he => hall e (by simp [he]), ?_⟩
      cases ds with
      | nil =>
          exact forall_digit (P := fun d => startsLikeStructure [d] = false) (by decide) hdigit
      | cons e ds =>
          exact startsLikeStructure_of_digit (.inr hdigit) (hall e (by simp))
  have hchars : ∀ e ∈ c :: s, isSpace e = false ∧ isBreak e = false ∧ isSpecial e = false := by
    intro e he
    have heither : e = '-' ∨ e.isDigit = true := by
      rcases List.mem_cons.mp he with rfl | he
      · exact hc
      · exact .inr (hs e he)
    rcases heither with rfl | he
    · decide
    · exact forall_digit (P := fun e =>
        isSpace e = false ∧ isBreak e = false ∧ isSpecial e = false) (by decide) he
  have hnone : ∀ {p : Char → Bool}, (∀ e ∈ c :: s, p e = false) → (c :: s).any p = false :=
    fun h => List.any_eq_false.mpr fun e he => by rw [h e he]; decide
  have hlast : (c :: s).getLast?.any isSpace = false := by
    rw [List.getLast?_eq_some_getLast (List.cons_ne_nil c s), Option.any_some]
    exact (hchars _ (List.getLast_mem _)).1
  rw [hcs]
  unfold allowsPlain
  rw [hstart, hnone fun e he => (hchars e he).2.1, hnone fun e he => (hchars e he).2.2, hlast]
  simp only
  rw [holdsStructure_of_digits hs, List.head?_cons, Option.any_some, (hchars c (by simp)).1]
  rfl

end ApiScaffold.Yaml
