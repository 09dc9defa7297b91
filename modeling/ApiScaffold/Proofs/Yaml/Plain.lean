/-
Plain scalars. A text that may stand without quotes is read back as it is: no word
of it ends in a colon or starts with a number sign, so nothing in it ends the
scalar, and a line that was folded starts deep enough to belong to it.
-/
import ApiScaffold.Proofs.Text.Character
import ApiScaffold.Proofs.Yaml.Runs

namespace ApiScaffold.Yaml

-- ========================================================= plain scalars

/-- Here a plain scalar ends whose lines may not start before a column. -/
def PlainEnd (floor : Nat) (rest : List Char) : Prop :=
  readPlain floor 0 .empty rest rest = ([], rest)

section readPlain

variable {floor lack : Nat} {mark s : List Char}

theorem readPlain_break (g : Gap) {c : Char} (hc : isBreak c = true)
    (hs : startsMark s = false) :
    readPlain floor lack g mark (c :: s)
      = readPlain floor floor (g.lineBreak c) mark s := by
  rw [readPlain, if_pos hc, hs]
  rfl

theorem readPlain_space (g : Gap) :
    readPlain floor lack g mark (' ' :: s)
      = readPlain floor (lack - 1) (g.blank ' ') mark s := by
  rw [readPlain, if_neg (by decide), if_pos rfl]

theorem readPlain_blanks {g : List Char} (hg : ∀ c ∈ g, isSpace c = true)
    (before : List Char) :
    readPlain floor 0 (.blanks before) mark (g ++ s)
      = readPlain floor 0 (.blanks (before ++ g)) mark s := by
  induction g generalizing before with
  | nil => rw [List.append_nil]; rfl
  | cons c g ih =>
      have hc : c = ' ' := of_decide_eq_true (hg c (by simp))
      subst hc
      rw [List.cons_append, readPlain_space, Nat.zero_sub, Gap.blank,
        ih (fun d hd => hg d (by simp [hd])), List.append_assoc]
      rfl

theorem readPlain_indent (first : Option Char) (more : List Char) (n : Nat) :
    readPlain floor lack (.breaks first more) mark (List.replicate n ' ' ++ s)
      = readPlain floor (lack - n) (.breaks first more) mark s := by
  induction n generalizing lack with
  | zero => rfl
  | succ n ih =>
      rw [List.replicate_succ, List.cons_append, readPlain_space, Gap.blank, ih]
      congr 1
      omega

/-- A word of a plain scalar, behind a gap. -/
theorem readPlain_word (g : Gap) {w : List Char} (hne : w ≠ [])
    (hw : ∀ c ∈ w, isInk c = true ∧ isSeparator c = false)
    (hhash : g.isEmpty = true ∨ w.head? ≠ some '#')
    (hcolon : w.getLast? ≠ some ':') :
    readPlain floor 0 g mark (w ++ s)
      = prepend (g.text ++ w) (readPlain floor 0 .empty s s) := by
  induction w generalizing g mark with
  | nil => exact absurd rfl hne
  | cons c w ih =>
      obtain ⟨hink, hseparator⟩ := hw c (by simp)
      have hends : (decide (c = ':') && endsToken (w ++ s)) = false := by
        cases w with
        | nil =>
            have hc : c ≠ ':' := fun heq => hcolon (by rw [heq]; rfl)
            rw [decide_eq_false hc, Bool.false_and]
        | cons d w =>
            have hd : endsToken (d :: w ++ s) = isSeparator d := rfl
            rw [hd, (hw d (by simp)).2, Bool.and_false]
      have hcomment : (decide (c = '#') && !g.isEmpty) = false := by
        rcases hhash with h | h
        · rw [h, Bool.not_true, Bool.and_false]
        · have hc : c ≠ '#' := fun heq => h (by rw [heq]; rfl)
          rw [decide_eq_false hc, Bool.false_and]
      rw [List.cons_append, readPlain, if_neg (by rw [isBreak_of_isInk hink]; decide),
        if_neg (ne_space_of_isInk hink), hseparator, hends, hcomment]
      by_cases hnil : w = []
      · subst hnil
        rfl
      · have hlast : w.getLast? ≠ some ':' := by
          rwa [List.getLast?_cons_of_ne_nil hnil] at hcolon
        have hnext : readPlain floor 0 .empty (w ++ s) (w ++ s) = _ := ih .empty hnil
          (fun d hd => hw d (by simp [hd])) (.inl rfl) hlast
        simp only [Bool.or_self, Nat.lt_irrefl, decide_false, Bool.false_eq_true, if_false]
        rw [hnext]
        unfold prepend
        simp [Gap.empty, Gap.text]

end readPlain

/-- What a word gives to a text without structure: no number sign behind a
separator, and no colon in front of one. -/
theorem holdsStructure_word {spaced : Bool} {w r : List Char} (hne : w ≠ [])
    (hw : ∀ c ∈ w, isSeparator c = false)
    (h : holdsStructure spaced (w ++ r) = false) :
    (w.head? = some '#' → spaced = false)
      ∧ (w.getLast? = some ':' → endsToken r = false)
      ∧ holdsStructure false r = false := by
  induction w generalizing spaced with
  | nil => exact absurd rfl hne
  | cons c w ih =>
      rw [List.cons_append, holdsStructure, Bool.or_eq_false_iff, Bool.or_eq_false_iff,
        hw c (by simp)] at h
      obtain ⟨⟨hcolon, hhash⟩, hrest⟩ := h
      have hfirst : (c :: w).head? = some '#' → spaced = false := by
        intro heq
        injection heq with heq
        rwa [decide_eq_true heq, Bool.true_and] at hhash
      by_cases hnil : w = []
      · subst hnil
        refine ⟨hfirst, fun heq => ?_, hrest⟩
        have hc : c = ':' := Option.some.inj heq
        rwa [decide_eq_true hc, Bool.true_and] at hcolon
      · obtain ⟨-, hlast, hbehind⟩ := ih hnil (fun d hd => hw d (by simp [hd])) hrest
        refine ⟨hfirst, fun heq => hlast ?_, hbehind⟩
        rwa [List.getLast?_cons_of_ne_nil hnil] at heq

theorem holdsStructure_blanks {spaced : Bool} {g r : List Char} (hne : g ≠ [])
    (hg : ∀ c ∈ g, isSpace c = true) (h : holdsStructure spaced (g ++ r) = false) :
    holdsStructure true r = false := by
  induction g generalizing spaced with
  | nil => exact absurd rfl hne
  | cons c g ih =>
      have hc : c = ' ' := of_decide_eq_true (hg c (by simp))
      subst hc
      rw [List.cons_append, holdsStructure, Bool.or_eq_false_iff] at h
      by_cases hnil : g = []
      · subst hnil
        exact h.2
      · exact ih hnil (fun d hd => hg d (by simp [hd])) h.2

/-- Behind a word stands a separator or nothing. -/
theorem Alternate.endsToken {rs : List (List Char)} (h : Alternate false rs) :
    endsToken rs.flatten = true := by
  have hhead : ∀ {c : Char} {g rs}, (isSpace c = true ∨ isBreak c = true) →
      Yaml.endsToken ((c :: g) ++ rs) = true := by
    intro c g rs hc
    show isSeparator c = true
    unfold isSeparator
    rcases hc with hc | hc
    · rw [of_decide_eq_true hc]
      rfl
    · rw [hc, Bool.or_true]
  cases h with
  | nil => rfl
  | blanks hne hblank _ =>
      obtain ⟨c, g, rfl⟩ := List.exists_cons_of_ne_nil hne
      exact hhead (.inl (hblank c (by simp)))
  | breaks hne hbreak _ =>
      obtain ⟨c, g, rfl⟩ := List.exists_cons_of_ne_nil hne
      exact hhead (.inr (hbreak c (by simp)))

/-- A gap of plain text stands as it is, or a blank alone as a new line. -/
theorem exists_putPlainRuns_blanks (depth : Nat) (fold : Bool) {p : Pen}
    (hfresh : p.fresh = false) (g : List Char) (rs : List (List Char)) :
    ∃ t p', p.Wrote p' t ∧ p'.fresh = false
      ∧ (t = g ∨ g = [' '] ∧ t = Json.lineBreak depth)
      ∧ putPlainRuns depth fold p (g :: rs) = putPlainRuns depth fold p' rs := by
  rw [putPlainRuns]
  split
  next hfold =>
    simp only [Bool.and_eq_true, beq_iff_eq] at hfold
    have hwrote := (Pen.wrote_indentTo_of_leave depth (.inl hfresh)).1
    exact ⟨_, (p.indentTo depth).midLine, hwrote, rfl, .inr ⟨hfold.1.1, rfl⟩, rfl⟩
  next => exact ⟨_, p.put g, p.wrote_put g, hfresh, .inl rfl, rfl⟩

theorem putPlainRuns_word (depth : Nat) (fold : Bool) (p : Pen) {w : List Char}
    (hink : ∀ c ∈ w, isInk c = true) (rs : List (List Char)) :
    putPlainRuns depth fold p (w :: rs) = putPlainRuns depth fold (p.put w) rs := by
  have hspace : (w == [' ']) = false := by
    refine beq_false_of_ne ?_
    rintro rfl
    cases hink ' ' (by simp)
  rw [putPlainRuns, hspace]
  rfl

/-- What is written of runs is read back as plain text behind a gap, up to where
such a text ends. `opens` tells whether a word comes first, and `spaced` whether a
separator may stand in front of it. -/
def SpellsPlain (depth : Nat) (opens spaced : Bool) (t : List Char)
    (rs : List (List Char)) : Prop :=
  ∀ floor g mark rest, floor ≤ depth → (opens = true ∨ g = .empty) →
    (spaced = true ∨ g.isEmpty = true) →
    (rs = [] → g = .empty ∧ mark = rest) → PlainEnd floor rest →
    readPlain floor 0 g mark (t ++ rest) = (g.text ++ rs.flatten, rest)

section SpellsPlain

variable {depth : Nat} {t : List Char} {rs : List (List Char)}

theorem SpellsPlain.nil (opens spaced : Bool) : SpellsPlain depth opens spaced [] [] := by
  rintro floor g mark rest - - - hrest hend
  obtain ⟨rfl, rfl⟩ := hrest rfl
  exact hend

/-- A word in front of runs. -/
theorem SpellsPlain.word {spaced : Bool} {w : List Char} (hne : w ≠ [])
    (hw : ∀ c ∈ w, isInk c = true ∧ isSeparator c = false)
    (hhash : w.head? = some '#' → spaced = false) (hcolon : w.getLast? ≠ some ':')
    (hnil : rs = [] → t = []) (h : SpellsPlain depth false false t rs) :
    SpellsPlain depth true spaced (w ++ t) (w :: rs) := by
  intro floor g mark rest hfloor _ hspaced _ hend
  have hfirst : g.isEmpty = true ∨ w.head? ≠ some '#' := by
    refine hspaced.symm.imp_right fun hs heq => ?_
    rw [hhash heq] at hs
    cases hs
  have hrest : rs = [] → Gap.empty = .empty ∧ t ++ rest = rest := fun heq =>
    ⟨rfl, by rw [hnil heq]; rfl⟩
  rw [List.append_assoc, readPlain_word g hne hw hfirst hcolon,
    h floor .empty _ rest hfloor (.inr rfl) (.inr rfl) hrest hend]
  unfold prepend
  simp [Gap.empty, Gap.text]

/-- A gap in front of runs, as it is or, a blank alone, as a new line. -/
theorem SpellsPlain.blanks {spaced : Bool} {g u : List Char}
    (hblank : ∀ c ∈ g, isSpace c = true) (hdepth : 0 < depth)
    (hform : u = g ∨ g = [' '] ∧ u = Json.lineBreak depth)
    (hne : rs ≠ []) (h : SpellsPlain depth true true t rs) :
    SpellsPlain depth false spaced (u ++ t) (g :: rs) := by
  intro floor g' mark rest hfloor hg' _ _ hend
  obtain rfl : g' = .empty := hg'.resolve_left (by decide)
  have hnext := fun g'' => h floor g'' mark rest hfloor (.inl rfl) (.inl rfl)
    (fun heq => absurd heq hne) hend
  rw [List.append_assoc, List.flatten_cons]
  rcases hform with rfl | ⟨rfl, rfl⟩
  · rw [Gap.empty, readPlain_blanks hblank, hnext]
    rfl
  · have hmark : startsMark (List.replicate depth ' ' ++ (t ++ rest)) = false :=
      startsMark_indent hdepth _
    rw [Json.lineBreak, List.cons_append, readPlain_break _ rfl hmark, Gap.empty,
      Gap.lineBreak, readPlain_indent, Nat.sub_eq_zero_of_le hfloor, hnext]
    rfl

end SpellsPlain

/-- Words and blanks without structure are read back as plain text. -/
theorem exists_putPlainRuns {opens : Bool} {rs : List (List Char)} (h : Alternate opens rs)
    (hchars : ∀ w ∈ rs, ∀ c ∈ w, isBreak c = false ∧ (isSpace c = false →
      isSeparator c = false))
    (hlast : ∀ c ∈ rs.flatten.getLast?, isSpace c = false)
    {depth : Nat} (hdepth : 0 < depth) (fold spaced : Bool) {p : Pen}
    (hfresh : p.fresh = false)
    (hstructure : holdsStructure spaced rs.flatten = false) :
    ∃ t, p.Wrote (putPlainRuns depth fold p rs) t
      ∧ (putPlainRuns depth fold p rs).fresh = false
      ∧ (rs = [] → t = [])
      ∧ (opens = false → ∀ c ∈ t.head?, c = ' ' ∨ c = '\n')
      ∧ SpellsPlain depth opens spaced t rs := by
  induction h generalizing spaced p with
  | nil opens => exact ⟨[], Pen.Wrote.refl p, hfresh, fun _ => rfl, nofun, .nil opens spaced⟩
  | @word w rs hne hink h ih =>
      have hw : ∀ c ∈ w, isInk c = true ∧ isSeparator c = false := fun c hc =>
        ⟨hink c hc, (hchars w (by simp) c hc).2 (isSpace_of_isInk (hink c hc))⟩
      rw [List.flatten_cons] at hstructure hlast
      obtain ⟨hhash, hcolon, hbehind⟩ :=
        holdsStructure_word hne (fun c hc => (hw c hc).2) hstructure
      have hlast' : ∀ c ∈ rs.flatten.getLast?, isSpace c = false := fun c hc =>
        hlast c (List.mem_getLast?_append_of_mem_getLast? hc)
      obtain ⟨t, hwrote, hkept, hnil, -, hspells⟩ := ih
        (fun v hv => hchars v (by simp [hv])) hlast' false (p := p.put w) hfresh hbehind
      have hend : w.getLast? ≠ some ':' := fun heq => by
        have hsome := hcolon heq
        rw [h.endsToken] at hsome
        cases hsome
      rw [putPlainRuns_word depth fold p hink]
      exact ⟨_, (p.wrote_put w).trans hwrote, hkept, nofun, nofun,
        hspells.word hne hw hhash hend hnil⟩
  | @blanks g rs hne hblank h ih =>
      rw [List.flatten_cons] at hstructure hlast
      have hrs : rs ≠ [] := by
        rintro rfl
        rw [List.flatten_nil, List.append_nil] at hlast
        have hsome := hlast _ (List.getLast?_eq_some_getLast hne)
        rw [hblank _ (List.getLast_mem hne)] at hsome
        cases hsome
      have hlast' : ∀ c ∈ rs.flatten.getLast?, isSpace c = false := fun c hc =>
        hlast c (List.mem_getLast?_append_of_mem_getLast? hc)
      obtain ⟨u, p', hgap, hfresh', hform, heq⟩ :=
        exists_putPlainRuns_blanks depth fold hfresh g rs
      obtain ⟨t, hwrote, hkept, -, -, hspells⟩ := ih
        (fun v hv => hchars v (by simp [hv])) hlast' true hfresh'
        (holdsStructure_blanks hne hblank hstructure)
      rw [heq]
      refine ⟨_, hgap.trans hwrote, hkept, nofun, fun _ c hc => ?_,
        hspells.blanks hblank hdepth hform hrs⟩
      rcases hform with rfl | ⟨-, rfl⟩
      · obtain ⟨d, u, rfl⟩ := List.exists_cons_of_ne_nil hne
        have hd : d = c := Option.some.inj hc
        exact .inl (hd ▸ of_decide_eq_true (hblank d (by simp)))
      · exact .inr (Option.some.inj hc).symm
  | @breaks g rs hne hbreak h ih =>
      obtain ⟨c, cs, rfl⟩ := List.exists_cons_of_ne_nil hne
      have hsome := (hchars (c :: cs) (by simp) c (by simp)).1
      rw [hbreak c (by simp)] at hsome
      cases hsome

/-- What stands for none of the separators, unless it is special. -/
theorem isSeparator_of_ink {c : Char} (hspecial : isSpecial c = false)
    (hbreak : isBreak c = false) (hspace : isSpace c = false) :
    isSeparator c = false := by
  have hne : ∀ {d : Char}, isSpecial d = true → c ≠ d := by
    rintro d hd rfl
    rw [hd] at hspecial
    cases hspecial
  have hblank : c ≠ ' ' := of_decide_eq_false hspace
  unfold isSeparator
  rw [decide_eq_false (hne (d := '\x00') (by decide)), decide_eq_false hblank,
    decide_eq_false (hne (d := '\t') (by decide)),
    decide_eq_false (hne (d := '\r') (by decide)), hbreak]
  rfl

/-- What may stand behind a scalar: a new line, or a colon behind a key. -/
def BehindScalar (rest : List Char) : Prop := ∀ c ∈ rest.head?, c = '\n' ∨ c = ':'

/-- A word that starts a text without structure starts a plain scalar, whatever
stands behind it, and no mark. -/
theorem startsPlain_word {w r s : List Char} (hne : w ≠ [])
    (hw : ∀ c ∈ w, isSeparator c = false) (hr : endsToken r = true)
    (hs : ∀ c ∈ s.head?, c ≠ '-' ∧ c ≠ '.')
    (h : startsLikeStructure (w ++ r) = false) :
    startsPlain (w ++ s) = true ∧ startsMark (w ++ s) = false := by
  obtain ⟨c, w, rfl⟩ := List.exists_cons_of_ne_nil hne
  rw [List.cons_append] at h
  unfold startsLikeStructure at h
  simp only [Bool.or_eq_false_iff] at h
  obtain ⟨⟨hdash, hdots⟩, hindicator, hlone⟩ := h
  constructor
  · -- an indicator is followed by a character of the word
    have hnext : ((decide (c = '?') || decide (c = ':') || decide (c = '-'))
        && endsToken (w ++ s)) = false := by
      cases w with
      | nil =>
          rw [List.nil_append, hr, Bool.and_true] at hlone
          rw [hlone, Bool.false_and]
      | cons d w =>
          have hd : endsToken (d :: w ++ s) = isSeparator d := rfl
          rw [hd, hw d (by simp), Bool.and_false]
    rw [List.cons_append, startsPlain, hw c (by simp), hindicator, hnext]
    rfl
  · -- a mark would lie in the word, for what follows does not go on with it
    have hmark : ∀ mark : List Char, (∀ d ∈ mark, d = '-' ∨ d = '.') →
        mark.isPrefixOf (c :: (w ++ r)) = false →
        mark.isPrefixOf (c :: w ++ s) = false := by
      intro mark hchars hnot
      rw [Bool.eq_false_iff, Ne, List.isPrefixOf_iff_prefix] at hnot ⊢
      intro hmark
      apply hnot
      show mark <+: c :: w ++ r
      rcases List.prefix_or_prefix_of_prefix hmark (List.prefix_append (c :: w) s)
        with hword | ⟨z, rfl⟩
      · exact hword.trans (List.prefix_append _ _)
      · cases z with
        | nil =>
            rw [List.append_nil]
            exact List.prefix_append _ _
        | cons d z =>
            obtain ⟨z', hz⟩ := (List.prefix_append_right_inj _).mp hmark
            have hd := hs d (by rw [← hz]; rfl)
            exact absurd (hchars d (by simp)) (not_or.mpr hd)
    unfold startsMark
    rw [hmark _ (forall_mem_of_all (by decide)) hdash,
      hmark _ (forall_mem_of_all (by decide)) hdots]
    rfl

/-- What is known of a text that may stand without quotes. -/
structure PlainText (s : List Char) : Prop where
  start : startsLikeStructure s = false
  unstructured : holdsStructure false s = false
  first : ∀ c ∈ s.head?, isSpace c = false
  last : ∀ c ∈ s.getLast?, isSpace c = false
  unbroken : ∀ c ∈ s, isBreak c = false
  regular : ∀ c ∈ s, isSpecial c = false

/-- A text whose start is no structure has none in front of its second character. -/
theorem holdsStructure_of_start {s : List Char} (hstart : startsLikeStructure s = false)
    (hinner : ∀ c r, s = c :: r → holdsStructure (isSeparator c) r = false) :
    holdsStructure false s = false := by
  cases s with
  | nil => rfl
  | cons c s =>
      unfold startsLikeStructure at hstart
      simp only [Bool.or_eq_false_iff] at hstart
      have hcolon : (decide (c = ':') && endsToken s) = false := by
        have hlone := hstart.2.2
        by_cases hc : c = ':'
        · rw [decide_eq_true hc, Bool.or_true, Bool.true_or, Bool.true_and] at hlone
          rw [hlone, Bool.and_false]
        · rw [decide_eq_false hc, Bool.false_and]
      rw [holdsStructure, hcolon, Bool.and_false]
      exact hinner c s rfl

theorem plainText_of_allowsPlain {s : List Char} (h : allowsPlain s = true) :
    PlainText s := by
  unfold allowsPlain at h
  simp only [Bool.and_eq_true, Bool.not_eq_true'] at h
  obtain ⟨⟨⟨⟨⟨hstart, hinner⟩, hfirst⟩, hlast⟩, hbreak⟩, hspecial⟩ := h
  refine ⟨hstart, holdsStructure_of_start hstart fun c r heq => ?_,
    fun c hc => ?_, fun c hc => ?_,
    fun c hc => Bool.eq_false_iff.mpr (List.any_eq_false.mp hbreak c hc),
    fun c hc => Bool.eq_false_iff.mpr (List.any_eq_false.mp hspecial c hc)⟩
  · subst heq
    exact hinner
  · rw [Option.mem_def.mp hc] at hfirst
    exact hfirst
  · rw [Option.mem_def.mp hc] at hlast
    exact hlast

namespace PlainText

variable {s : List Char}

theorem isSeparator_eq (h : PlainText s) {c : Char} (hc : c ∈ s)
    (hspace : isSpace c = false) : isSeparator c = false :=
  isSeparator_of_ink (h.regular c hc) (h.unbroken c hc) hspace

/-- The runs of such a text are words and blanks in turn, a word first. -/
theorem exists_runs (h : PlainText s) (hne : s ≠ []) :
    ∃ w rs, runs s = w :: rs ∧ s = w ++ rs.flatten ∧ w ≠ []
      ∧ (∀ c ∈ w, isInk c = true) ∧ Alternate false rs := by
  have hunmixed : s.IsChain Unmixed := by
    refine List.Pairwise.isChain (List.pairwise_iff_forall_sublist.mpr ?_)
    intro c d hcd
    have hmem := hcd.subset
    unfold Unmixed
    rw [h.unbroken c (hmem (by simp)), h.unbroken d (hmem (by simp)), Bool.and_false]
    exact ⟨rfl, rfl⟩
  have halternate : Alternate true (runs s) :=
    (alternate_runs hunmixed).of_head fun c hc => by
      unfold isInk
      rw [h.first c hc, h.unbroken c (List.mem_of_mem_head? hc)]
      rfl
  have hruns : (runs s).flatten = s := List.flatten_splitBy _ s
  generalize hrs : runs s = rs at halternate hruns
  cases halternate with
  | nil => exact absurd hruns.symm hne
  | @word w rs hwne hink hrest => exact ⟨w, rs, rfl, hruns.symm, hwne, hink, hrest⟩

end PlainText

/-- Plain text starts with its first word, behind a blank where one is needed. -/
theorem exists_putPlain_word (depth : Nat) (fold : Bool) (p : Pen) {s w : List Char}
    {rs : List (List Char)} (hruns : runs s = w :: rs) (hink : ∀ c ∈ w, isInk c = true) :
    ∃ p', p.Wrote p' (p.gap ++ w) ∧ p'.fresh = false
      ∧ putPlain depth fold p s = putPlainRuns depth fold p' rs := by
  have hword := fun q : Pen => putPlainRuns_word depth fold q hink rs
  unfold putPlain Pen.gap
  rw [hruns]
  split
  next => exact ⟨p.midLine.put w, p.midLine.wrote_put w, rfl, hword _⟩
  next => exact ⟨(p.put [' ']).midLine.put w,
    (p.wrote_put [' ']).trans (Pen.wrote_put (p.put [' ']).midLine w), rfl, hword _⟩

/-- A text that may stand without quotes is read back as it is. -/
theorem exists_putPlain {s : List Char} (hne : s ≠ []) (h : allowsPlain s = true)
    {depth : Nat} (hdepth : 0 < depth) (fold : Bool) (p : Pen) :
    ∃ t, p.Wrote (putPlain depth fold p s) (p.gap ++ t)
      ∧ (putPlain depth fold p s).fresh = false
      ∧ t.head? = s.head?
      ∧ ∀ floor rest, floor ≤ depth → BehindScalar rest → PlainEnd floor rest →
          startsPlain (t ++ rest) = true ∧ startsMark (t ++ rest) = false
            ∧ readPlain floor 0 .empty (t ++ rest) (t ++ rest) = (s, rest) := by
  have hplain := plainText_of_allowsPlain h
  obtain ⟨w, rs, hruns, hs, hwne, hink, hrest⟩ := hplain.exists_runs hne
  have hmem : ∀ c ∈ w, c ∈ s := fun c hc => hs ▸ List.mem_append_left _ hc
  have hmems : ∀ v ∈ rs, ∀ c ∈ v, c ∈ s := fun v hv c hc =>
    hs ▸ List.mem_append_right _ (List.mem_flatten.mpr ⟨v, hv, hc⟩)
  have hw : ∀ c ∈ w, isInk c = true ∧ isSeparator c = false := fun c hc =>
    ⟨hink c hc, hplain.isSeparator_eq (hmem c hc) (isSpace_of_isInk (hink c hc))⟩
  have hchars : ∀ v ∈ rs, ∀ c ∈ v, isBreak c = false ∧ (isSpace c = false →
      isSeparator c = false) := fun v hv c hc =>
    ⟨hplain.unbroken c (hmems v hv c hc), hplain.isSeparator_eq (hmems v hv c hc)⟩
  have hlast : ∀ c ∈ rs.flatten.getLast?, isSpace c = false := fun c hc =>
    hplain.last c (hs ▸ List.mem_getLast?_append_of_mem_getLast? hc)
  obtain ⟨-, hcolon, hbehind⟩ := holdsStructure_word hwne (fun c hc => (hw c hc).2)
    (hs ▸ hplain.unstructured)
  obtain ⟨p', hfirst, hfresh, heq⟩ := exists_putPlain_word depth fold p hruns hink
  obtain ⟨t, hwrote, hkept, hnil, hhead, hspells⟩ := exists_putPlainRuns hrest hchars
    hlast hdepth fold false hfresh hbehind
  have hend : w.getLast? ≠ some ':' := fun hc => by
    have hsome := hcolon hc
    rw [hrest.endsToken] at hsome
    cases hsome
  refine ⟨w ++ t, ?_, heq ▸ hkept, ?_, fun floor rest hfloor hfollows hstop => ?_⟩
  · rw [heq, ← List.append_assoc]
    exact hfirst.trans hwrote
  · obtain ⟨c, w, rfl⟩ := List.exists_cons_of_ne_nil hwne
    rw [hs]
    rfl
  · -- behind the first word stands a gap, or what follows the scalar
    have hnext : ∀ c ∈ (t ++ rest).head?, c ≠ '-' ∧ c ≠ '.' := by
      intro c hc
      cases t with
      | nil => rcases hfollows c hc with rfl | rfl <;> decide
      | cons d t =>
          obtain rfl : d = c := Option.some.inj hc
          rcases hhead rfl d rfl with rfl | rfl <;> decide
    obtain ⟨hstarts, hmark⟩ := startsPlain_word hwne (fun c hc => (hw c hc).2)
      hrest.endsToken hnext (hs ▸ hplain.start)
    have hwhole : SpellsPlain depth true false (w ++ t) (w :: rs) :=
      hspells.word hwne hw (fun _ => rfl) hend hnil
    have hread := hwhole floor .empty ((w ++ t) ++ rest) rest hfloor (.inl rfl)
      (.inr rfl) nofun hstop
    rw [List.append_assoc] at hread ⊢
    refine ⟨hstarts, hmark, ?_⟩
    rw [hread, List.flatten_cons, ← hs]
    rfl

-- ================================================= where a plain scalar ends

theorem plainEnd_colon (floor : Nat) {s : List Char} (hs : endsToken s = true) :
    PlainEnd floor (':' :: s) := by
  unfold PlainEnd
  rw [readPlain, if_neg (by decide), if_neg (by decide), hs]
  rfl

/-- A plain scalar ends in front of a line that starts before its column. -/
theorem plainEnd_line {floor k : Nat} (hk : k < floor) {s : List Char}
    (hs : ∀ c ∈ s.head?, isBreak c = false ∧ c ≠ ' ') :
    PlainEnd floor ('\n' :: (List.replicate k ' ' ++ s)) := by
  unfold PlainEnd
  rw [readPlain, if_pos (by decide)]
  split
  next => rfl
  next =>
    rw [Gap.empty, Gap.lineBreak, readPlain_indent]
    cases s with
    | nil => rfl
    | cons c s =>
        obtain ⟨hbreak, hspace⟩ := hs c rfl
        have hlack : 0 < floor - k := by omega
        rw [readPlain, if_neg (by rw [hbreak]; decide), if_neg hspace, decide_eq_true hlack,
          Bool.or_true]
        rfl

end ApiScaffold.Yaml
