/-
Tokens of JSON that are read back as they were written: numerals, words and
texts. What follows a token is kept in view throughout, because a reader
takes as much as it can: a numeral ends where no digit, point or exponent
stands behind it (`NumberEnd`), a text at its closing quote, which no
character in it is written as.

A character has one of three forms: a short escape, an escape by number if
it is a control, or itself. `stringBody_stringChar` reads one character in
any of them, and a text is read by induction on its characters.
-/
import ApiScaffold.Json.Printer
import ApiScaffold.Json.Reader
import ApiScaffold.Proofs.Text.Lines
import Mathlib.Algebra.Group.Nat.Defs

namespace ApiScaffold

-- ============================================================== numerals

theorem isDigit_of_mem_decimal {n : Nat} {c : Char} (h : c ∈ decimal n) :
    c.isDigit = true :=
  Nat.isDigit_of_mem_toDigits (by decide) (by decide) h

/-- A numeral is read as the number it was written for. -/
theorem ofDecimal_decimal (n : Nat) : ofDecimal (decimal n) = n :=
  Nat.ofDigitChars_eq_foldl.symm.trans Nat.ofDigitChars_ten_toDigits

/-- Only zero is written with a zero in front. -/
theorem exists_decimal_cons (n : Nat) :
    ∃ c cs, decimal n = c :: cs ∧ c.isDigit = true ∧ (n ≠ 0 → c ≠ '0') := by
  obtain ⟨c, cs, hcs⟩ :=
    List.exists_cons_of_ne_nil (Nat.toDigits_ne_nil (n := n) (b := 10))
  refine ⟨c, cs, hcs, ?_, ?_⟩
  · apply isDigit_of_mem_decimal (n := n)
    rw [decimal, hcs]
    exact List.mem_cons_self ..
  · induction n using Nat.strongRecOn generalizing cs with
    | ind n ih =>
        intro hn
        by_cases hsmall : n < 10
        · rw [Nat.toDigits_of_lt_base hsmall] at hcs
          injection hcs with hc
          rw [← hc]
          exact fun h => hn (Nat.digitChar_eq_zero.mp h)
        · -- the digits of the tenth part stand in front
          obtain ⟨c', cs', hcs'⟩ := List.exists_cons_of_ne_nil
            (Nat.toDigits_ne_nil (n := n / 10) (b := 10))
          rw [Nat.toDigits_of_base_le (by decide) (Nat.le_of_not_lt hsmall),
            hcs'] at hcs
          injection hcs with hc
          rw [hc] at hcs'
          exact ih (n / 10) (by omega) cs' hcs' (by omega)

namespace Json

/-- Nothing stands here that would go on with a numeral. -/
def NumberEnd (rest : List Char) : Prop :=
  ∀ c ∈ rest.head?, c.isDigit = false ∧ c ≠ '.' ∧ c ≠ 'e' ∧ c ≠ 'E'

section number

variable {rest : List Char}

theorem digitRun_append {ds : List Char} (hds : ∀ c ∈ ds, c.isDigit = true)
    (hrest : NumberEnd rest) : digitRun (ds ++ rest) = (ds, rest) := by
  obtain ⟨htake, hdrop⟩ := run_append hds fun c hc => (hrest c hc).1
  unfold digitRun
  rw [htake, hdrop]

theorem wholePart?_decimal (n : Nat) (hrest : NumberEnd rest) :
    wholePart? (decimal n ++ rest) = some (decimal n, rest) := by
  by_cases hn : n = 0
  · subst hn
    rfl
  · have hrun :=
      digitRun_append (fun _ => isDigit_of_mem_decimal (n := n)) hrest
    obtain ⟨c, cs, hcs, hdigit, hzero⟩ := exists_decimal_cons n
    rw [hcs] at hrun ⊢
    rw [← hrun]
    show wholePart? (c :: (cs ++ rest)) = _
    unfold wholePart?
    split
    next heq =>
      injection heq with heq
      exact absurd heq (hzero hn)
    next heq =>
      injection heq with hc hr
      subst hc hr
      exact if_pos hdigit
    next heq => cases heq

/-- No fraction and no exponent follow. -/
theorem NumberEnd.stops (hrest : NumberEnd rest) :
    fractionPart rest = ([], rest) ∧ exponentPart? rest = none := by
  cases rest with
  | nil => exact ⟨rfl, rfl⟩
  | cons c rest =>
      obtain ⟨-, hpoint, he, hE⟩ := hrest c rfl
      constructor
      · unfold fractionPart
        split
        next heq =>
          injection heq with heq
          exact absurd heq hpoint
        next => rfl
      · show (if c = 'e' ∨ c = 'E' then _ else none) = none
        exact if_neg (not_or.mpr ⟨he, hE⟩)

theorem unsigned_decimal (start : List Char) (negative : Bool) {n : Nat}
    (hn : n < 10 ^ digitLimit) (hrest : NumberEnd rest) :
    unsigned start negative (decimal n ++ rest)
      = .ok (.int (if negative then -(n : Int) else n), rest) := by
  have hlength : (decimal n).length ≤ digitLimit :=
    (Nat.length_toDigits_le_iff (by decide) (by decide)).mpr hn
  obtain ⟨hfraction, hexponent⟩ := hrest.stops
  unfold unsigned
  rw [wholePart?_decimal n hrest]
  simp only
  rw [hfraction, hexponent]
  simp only [List.isEmpty_nil, Option.isNone_none, Bool.and_self, if_true]
  rw [if_neg (Nat.not_lt.mpr hlength), ofDecimal_decimal]

theorem number_intText {n : Int} (hn : n.natAbs < 10 ^ digitLimit)
    (hrest : NumberEnd rest) :
    number (intText n ++ rest) = .ok (.int n, rest) := by
  unfold intText
  by_cases hneg : n < 0
  · rw [if_pos hneg]
    have habs : -(n.natAbs : Int) = n := by omega
    show unsigned _ true (decimal n.natAbs ++ rest) = _
    rw [unsigned_decimal _ _ hn hrest, if_pos rfl, habs]
  · rw [if_neg hneg]
    have habs : (n.natAbs : Int) = n := by omega
    obtain ⟨c, cs, hcs, hdigit, -⟩ := exists_decimal_cons n.natAbs
    unfold number
    split
    next heq =>
      rw [hcs] at heq
      injection heq with heq
      rw [heq] at hdigit
      exact absurd hdigit (by decide)
    next => rw [unsigned_decimal _ _ hn hrest, if_neg (by decide), habs]

/-- Every word starts with two characters that are no digits. -/
theorem exists_of_mem_words {e : String × Json} (he : e ∈ words) :
    ∃ x y xs, e.1.toList = x :: y :: xs
      ∧ x.isDigit = false ∧ y.isDigit = false := by
  simp only [words, List.mem_cons, List.not_mem_nil, or_false] at he
  rcases he with rfl | rfl | rfl | rfl | rfl | rfl <;>
    exact ⟨_, _, _, rfl, by decide, by decide⟩

/-- Where a digit is the first character or the second, no word stands. -/
theorem scalar_of_digit {s : List Char} {c : Char} (hc : c.isDigit = true)
    (hs : s = c :: rest ∨ ∃ x, s = x :: c :: rest) : scalar s = number s := by
  have hnone : words.findSome?
      (fun e => (after? e.1 s).map fun rest => (e.2, rest)) = none := by
    rw [List.findSome?_eq_none_iff]
    intro e he
    obtain ⟨x, y, xs, hword, hx, hy⟩ := exists_of_mem_words he
    have hnot : ¬ e.1.toList.isPrefixOf s = true := by
      rw [List.isPrefixOf_iff_prefix, hword]
      intro hprefix
      rcases hs with rfl | ⟨z, rfl⟩
      · rw [(List.cons_prefix_cons.mp hprefix).1, hc] at hx
        cases hx
      · have hrest := (List.cons_prefix_cons.mp hprefix).2
        rw [(List.cons_prefix_cons.mp hrest).1, hc] at hy
        cases hy
    unfold after?
    rw [if_neg hnot]
    rfl
  unfold scalar
  rw [hnone]

/-- An integer is read back where nothing goes on with it. -/
theorem scalar_intText {n : Int} (hn : n.natAbs < 10 ^ digitLimit)
    (hrest : NumberEnd rest) :
    scalar (intText n ++ rest) = .ok (.int n, rest) := by
  obtain ⟨c, cs, hcs, hdigit, -⟩ := exists_decimal_cons n.natAbs
  have hs : intText n ++ rest = c :: (cs ++ rest)
      ∨ ∃ x, intText n ++ rest = x :: c :: (cs ++ rest) := by
    unfold intText
    rw [hcs]
    split
    · exact Or.inr ⟨'-', rfl⟩
    · exact Or.inl rfl
  rw [scalar_of_digit hdigit hs, number_intText hn hrest]

end number

-- ================================================================ texts

/-- A short escape is undone. -/
theorem unescape?_of_shortEscape? {c e : Char} (h : shortEscape? c = some e) :
    e ≠ 'u' ∧ unescape? e = some c := by
  unfold shortEscape? at h
  repeat' split at h
  all_goals cases h
  all_goals subst_vars; decide

/-- The number of a control is written in four digits, which denote it. -/
theorem exists_hexDigits {n : Nat} (hn : n < 32) :
    ∃ a b, hexDigits 4 n = ['0', '0', a, b] ∧ unit? '0' '0' a b = some n := by
  have hall : ∀ n < 32,
      hexDigits 4 n = ['0', '0', Nat.digitChar (n / 16), Nat.digitChar (n % 16)]
        ∧ unit? '0' '0' (Nat.digitChar (n / 16)) (Nat.digitChar (n % 16))
          = some n := by
    decide
  exact ⟨_, _, hall n hn⟩

theorem unicodeEscape_hexDigits {c : Char} (hc : c.toNat < 32) (next : Char)
    (rest : List Char) :
    unicodeEscape (hexDigits 4 c.toNat ++ next :: rest) = .ok (c, 5) := by
  obtain ⟨a, b, hdigits, hunit⟩ := exists_hexDigits hc
  have hhigh : ¬ (0xD800 ≤ c.toNat ∧ c.toNat < 0xDC00) := by omega
  have hpair : ¬ (0xD800 ≤ c.toNat ∧ c.toNat < 0xE000) := by omega
  rw [hdigits]
  show unicodeEscape ('0' :: '0' :: a :: b :: next :: rest) = _
  unfold unicodeEscape
  simp only
  rw [hunit]
  simp only
  rw [if_neg hhigh]
  unfold unitChar
  rw [if_neg hpair, Char.ofNat_toNat]

section character

variable {c e : Char}

/-- A short escape is read as the character it stands for. -/
theorem escape_of_shortEscape? (h : shortEscape? c = some e)
    (start rest : List Char) : escape start (e :: rest) = .ok (c, 1) := by
  obtain ⟨hu, hunescape⟩ := unescape?_of_shortEscape? h
  unfold escape
  split
  next heq => cases heq
  next heq =>
    injection heq with heq
    exact absurd heq hu
  next heq =>
    injection heq with heq hrest
    subst heq hrest
    rw [hunescape]

/-- A control is read from its escape by number. -/
theorem stringBody_control (hc : c.toNat < 32) (start acc : List Char)
    (next : Char) (rest : List Char) :
    stringBody start acc
        ('\\' :: 'u' :: (hexDigits 4 c.toNat ++ next :: rest))
      = stringBody start (c :: acc) (next :: rest) := by
  obtain ⟨a, b, hdigits, -⟩ := exists_hexDigits hc
  have hescape : escape start ('u' :: (hexDigits 4 c.toNat ++ next :: rest))
      = .ok (c, 5) :=
    unicodeEscape_hexDigits hc next rest
  rw [stringBody, hescape]
  simp only
  rw [hdigits]
  rfl

/-- A character that needs no escape is read as it stands. -/
theorem stringBody_plain (hshort : shortEscape? c = none)
    (hcontrol : ¬ c.toNat < 32) (start acc rest : List Char) :
    stringBody start acc (c :: rest) = stringBody start (c :: acc) rest := by
  have hquote : c ≠ '"' := by
    rintro rfl
    cases hshort
  have hslash : c ≠ '\\' := by
    rintro rfl
    cases hshort
  rw [stringBody.eq_def]
  split
  next heq => cases heq
  next heq =>
    injection heq with heq
    exact absurd heq hquote
  next heq =>
    injection heq with heq
    exact absurd heq hslash
  next heq =>
    injection heq with heq hrest
    subst heq hrest
    exact if_neg hcontrol

end character

/-- One character of a text is read back, in whichever form it is written;
the closing quote, if nothing else, still follows. -/
theorem stringBody_stringChar (start acc : List Char) (c next : Char)
    (rest : List Char) :
    stringBody start acc (stringChar c ++ next :: rest)
      = stringBody start (c :: acc) (next :: rest) := by
  unfold stringChar
  split
  next e hshort =>
    show stringBody start acc ('\\' :: e :: next :: rest) = _
    rw [stringBody, escape_of_shortEscape? hshort]
    rfl
  next hshort =>
    split
    next hcontrol => exact stringBody_control hcontrol start acc next rest
    next hcontrol => exact stringBody_plain hshort hcontrol start acc _

theorem stringBody_flatMap (start acc cs rest : List Char) :
    stringBody start acc (cs.flatMap stringChar ++ '"' :: rest)
      = .ok (String.ofList (acc.reverse ++ cs), rest) := by
  induction cs generalizing acc with
  | nil =>
      show stringBody start acc ('"' :: rest) = _
      rw [stringBody, List.append_nil]
  | cons c cs ih =>
      obtain ⟨next, more, hmore⟩ : ∃ next more,
          cs.flatMap stringChar ++ '"' :: rest = next :: more :=
        List.exists_cons_of_ne_nil (by simp)
      rw [List.flatMap_cons, List.append_assoc, hmore, stringBody_stringChar,
        ← hmore, ih, List.reverse_cons, List.append_assoc]
      rfl

/-- A text is read back character by character. -/
theorem stringBody_stringText (start : List Char) (s : String)
    (rest : List Char) :
    stringBody start [] (s.toList.flatMap stringChar ++ '"' :: rest)
      = .ok (s, rest) := by
  rw [stringBody_flatMap, List.reverse_nil, List.nil_append,
    String.ofList_toList]

end Json

end ApiScaffold
