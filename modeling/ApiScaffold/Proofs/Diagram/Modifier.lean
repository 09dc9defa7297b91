/-
Modifiers: where one starts, and that blanks at the end of the text have
no part in it.
-/
import ApiScaffold.Diagram.Modifier
import ApiScaffold.Proofs.Text.Character
import ApiScaffold.Proofs.Text.Lines

namespace ApiScaffold

/-- A modifier after its opening brace: a word and the closing brace. -/
theorem modifierWidth?_eq_some {s : List Char} {width : Nat} :
    modifierWidth? s = some width ↔ ∃ word rest, word ≠ []
      ∧ (∀ c ∈ word, isWord c = true) ∧ s = word ++ '\x7d' :: rest
      ∧ width = word.length + 1 := by
  unfold modifierWidth?
  constructor
  · intro h
    split at h
    next w ws rest htake hdrop =>
      injection h with h
      refine ⟨w :: ws, rest, by simp, fun c hc => ?_, ?_, h.symm⟩
      · exact List.mem_takeWhile_imp (htake ▸ hc)
      · rw [← htake, ← hdrop, List.takeWhile_append_dropWhile]
    next => cases h
  · rintro ⟨word, rest, hne, hword, rfl, rfl⟩
    have hend : isWord '\x7d' = false := by decide
    rw [List.takeWhile_append_of_pos hword, List.dropWhile_append_of_pos hword,
      List.takeWhile_cons_of_neg (by simp [hend]),
      List.dropWhile_cons_of_neg (by simp [hend]), List.append_nil]
    cases word with
    | nil => exact absurd rfl hne
    | cons w ws => rfl

/-- Blanks at the end of a text make no modifier and break none. -/
theorem modifierWidth?_append_blanks {g : List Char} (hg : AllBlank g)
    (s : List Char) : modifierWidth? (s ++ g) = modifierWidth? s := by
  refine Option.ext fun width => ?_
  constructor
  · intro h
    obtain ⟨word, rest, hne, hword, heq, hwidth⟩ := modifierWidth?_eq_some.mp h
    rw [List.append_cons word, List.append_eq_append_iff] at heq
    refine modifierWidth?_eq_some.mpr ?_
    obtain ⟨tail, htail, hg'⟩ | ⟨tail, hs, -⟩ := heq
    · -- the closing brace cannot be one of the blanks
      rcases List.eq_nil_or_concat tail with rfl | ⟨front, d, rfl⟩
      · rw [List.append_nil] at htail
        exact ⟨word, [], hne, hword, htail.symm, hwidth⟩
      · rw [List.concat_eq_append, ← List.append_assoc] at htail
        have hd := (List.append_inj' htail rfl).2
        have hmem : d ∈ g := by simp [hg']
        injection hd with hd
        exact absurd (hg d hmem) (hd ▸ by decide)
    · exact ⟨word, tail, hne, hword, by simp [hs], hwidth⟩
  · intro h
    obtain ⟨word, rest, hne, hword, rfl, hwidth⟩ := modifierWidth?_eq_some.mp h
    exact modifierWidth?_eq_some.mpr
      ⟨word, rest ++ g, hne, hword, by simp, hwidth⟩

/-- A modifier does not go beyond its line. -/
theorem modifierWidth?_append_break (s t : List Char) :
    modifierWidth? (s ++ '\n' :: t) = modifierWidth? s := by
  refine Option.ext fun width => ?_
  constructor
  · intro h
    obtain ⟨word, rest, hne, hword, heq, hwidth⟩ := modifierWidth?_eq_some.mp h
    refine modifierWidth?_eq_some.mpr ?_
    obtain ⟨tail, hbreak, hends⟩ | ⟨tail, rfl, hends⟩ :=
      List.append_eq_append_iff.mp heq
    · cases tail with
      | nil => injection hends with hc _; exact absurd hc (by decide)
      | cons c tail =>
          injection hends with hc _
          have hmem : '\n' ∈ word := by simp [hbreak, ← hc]
          exact absurd (hword _ hmem) (by decide)
    · cases tail with
      | nil => injection hends with hc _; exact absurd hc (by decide)
      | cons c tail =>
          injection hends with hc _
          exact ⟨word, tail, hne, hword, by rw [← hc], hwidth⟩
  · intro h
    obtain ⟨word, rest, hne, hword, rfl, hwidth⟩ := modifierWidth?_eq_some.mp h
    exact modifierWidth?_eq_some.mpr
      ⟨word, rest ++ '\n' :: t, hne, hword, by simp, hwidth⟩

/-- A text that starts with a modifier, and what is left behind it and the blanks
after it. -/
theorem afterModifier?_eq_some {s r : List Char} :
    afterModifier? s = some r ↔ ∃ word rest, word ≠ []
      ∧ (∀ c ∈ word, isWord c = true) ∧ s = '\x7b' :: (word ++ '\x7d' :: rest)
      ∧ r = trimStart rest := by
  have hdrop : ∀ word rest : List Char,
      (word ++ '\x7d' :: rest).drop (word.length + 1) = rest := fun word rest => by
    rw [List.append_cons, List.drop_left' (by simp)]
  constructor
  · intro h
    unfold afterModifier? at h
    split at h
    next t =>
      obtain ⟨width, hwidth, rfl⟩ := Option.map_eq_some_iff.mp h
      obtain ⟨word, rest, hne, hword, rfl, rfl⟩ := modifierWidth?_eq_some.mp hwidth
      exact ⟨word, rest, hne, hword, rfl, by rw [hdrop]⟩
    next => cases h
  · rintro ⟨word, rest, hne, hword, rfl, rfl⟩
    have hwidth : modifierWidth? (word ++ '\x7d' :: rest) = some (word.length + 1) :=
      modifierWidth?_eq_some.mpr ⟨word, rest, hne, hword, rfl, rfl⟩
    show (modifierWidth? _).map _ = _
    rw [hwidth, Option.map_some, hdrop]

/-- Trimming the end of a text leaves its first modifier as it is. -/
theorem afterModifier?_trimEnd (s : List Char) :
    afterModifier? (trimEnd s) = (afterModifier? s).map trimEnd := by
  cases h : afterModifier? s with
  | some r =>
      obtain ⟨word, rest, hne, hword, rfl, rfl⟩ := afterModifier?_eq_some.mp h
      have hend : InkEnd ('\x7b' :: (word ++ ['\x7d'])) :=
        (inkEnd_of_ink (s := ['\x7d']) (by decide)).append_left (by simp)
          ('\x7b' :: word)
      have htrim := trimEnd_append_of_inkEnd (by simp) hend rest
      rw [Option.map_some]
      refine afterModifier?_eq_some.mpr ⟨word, trimEnd rest, hne, hword, ?_, ?_⟩
      · simpa using htrim
      · exact (trimStart_trimEnd rest).symm
  | none =>
      obtain ⟨g, -, hs⟩ := exists_trimEnd s
      rw [Option.map_none, Option.eq_none_iff_forall_ne_some]
      intro r hr
      obtain ⟨word, rest, hne, hword, htrim, -⟩ := afterModifier?_eq_some.mp hr
      -- the blanks that were cut off stand behind the modifier
      have hwhole : s = '\x7b' :: (word ++ '\x7d' :: (rest ++ g)) := by
        rw [hs, htrim]
        simp
      rw [afterModifier?_eq_some.mpr ⟨word, _, hne, hword, hwhole, rfl⟩] at h
      cases h

theorem dropModifiers_of_some {s r : List Char} (h : afterModifier? s = some r) :
    dropModifiers s = dropModifiers r := by
  rw [dropModifiers]
  split
  next r' hr =>
    rw [h] at hr
    injection hr with hr
    rw [hr]
  next hnone =>
    rw [h] at hnone
    cases hnone

theorem dropModifiers_of_none {s : List Char} (h : afterModifier? s = none) :
    dropModifiers s = s := by
  rw [dropModifiers]
  split
  next r hr =>
    rw [h] at hr
    cases hr
  next => rfl

/-- Modifiers may be left out before or after the end is trimmed. -/
theorem dropModifiers_trimEnd (s : List Char) :
    dropModifiers (trimEnd s) = trimEnd (dropModifiers s) := by
  induction s using dropModifiers.induct with
  | case1 s r hr ih =>
      have htrim : afterModifier? (trimEnd s) = some (trimEnd r) := by
        rw [afterModifier?_trimEnd, hr, Option.map_some]
      rw [dropModifiers_of_some htrim, dropModifiers_of_some hr, ih]
  | case2 s hnone =>
      have htrim : afterModifier? (trimEnd s) = none := by
        rw [afterModifier?_trimEnd, hnone, Option.map_none]
      rw [dropModifiers_of_none htrim, dropModifiers_of_none hnone]

/-- A text that does not start with a brace starts with no modifier. -/
theorem dropModifiers_of_ne {s : List Char} (h : s.head? ≠ some '\x7b') :
    dropModifiers s = s := by
  refine dropModifiers_of_none ?_
  unfold afterModifier?
  split
  · exact absurd rfl h
  · rfl

end ApiScaffold
