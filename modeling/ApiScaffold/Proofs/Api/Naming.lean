/-
Segments of names, character by character. All that stands in a segment is a
hyphen, part of the ending of a plural, a final sigma, or comes from the lower
case of a character of the name (`mem_pathSegment`).

No step of the derivation finds anything to do in what the later ones leave. A
text in lower case has no capital to put a hyphen before and stays in lower case,
a text without blanks has none to join, and a plural is its own plural. So a text
of that kind is its own segment (`pathSegment_eq_self`).
-/
import ApiScaffold.Api.Naming
import ApiScaffold.Proofs.Text.Lines
import ApiScaffold.Proofs.Text.Lowered

namespace ApiScaffold

variable {s : List Char} {c : Char}

-- ========================================================= made of what

/-- Hyphenating brings in hyphens only. -/
theorem mem_hyphenate (h : c ∈ hyphenate s) : c = '-' ∨ c ∈ s := by
  fun_induction hyphenate s with
  | case1 d e rest _ ih =>
      obtain rfl | rfl | h := by simpa only [List.mem_cons] using h
      · exact Or.inr (List.mem_cons_self ..)
      · exact Or.inl rfl
      · exact (ih h).imp_right (List.mem_cons_of_mem _)
  | case2 d e rest _ ih =>
      obtain rfl | h := List.mem_cons.mp h
      · exact Or.inr (List.mem_cons_self ..)
      · exact (ih h).imp_right (List.mem_cons_of_mem _)
  | case3 s _ => exact Or.inr h

/-- Joining at blanks brings in hyphens and leaves no blank. -/
theorem mem_joinBlanks {inRun : Bool} (h : c ∈ joinBlanks inRun s) :
    c = '-' ∨ (c ∈ s ∧ isBlank c = false) := by
  induction s generalizing inRun with
  | nil => cases h
  | cons d s ih =>
      have hrest : ∀ {inRun}, c ∈ joinBlanks inRun s →
          c = '-' ∨ (c ∈ d :: s ∧ isBlank c = false) := fun h =>
        (ih h).imp_right fun ⟨hmem, hink⟩ => ⟨List.mem_cons_of_mem _ hmem, hink⟩
      unfold joinBlanks at h
      by_cases hd : isBlank d = true
      · rw [if_pos hd] at h
        split at h
        · exact hrest h
        · obtain rfl | h := List.mem_cons.mp h
          · exact Or.inl rfl
          · exact hrest h
      · rw [if_neg hd] at h
        obtain rfl | h := List.mem_cons.mp h
        · exact Or.inr ⟨List.mem_cons_self .., by simpa using hd⟩
        · exact hrest h

/-- A plural brings in the letters of its ending only. -/
theorem mem_plural (h : c ∈ plural s) : c ∈ ['i', 'e', 's'] ∨ c ∈ s := by
  unfold plural at h
  split at h
  · exact Or.inr h
  split at h
  · obtain h | h := List.mem_append.mp h
    · exact Or.inr h
    · exact Or.inl (List.mem_cons_of_mem _ h)
  have hsuffix : c ∈ s ++ ['s'] → c ∈ ['i', 'e', 's'] ∨ c ∈ s := by
    simp only [List.mem_append, List.mem_cons]
    tauto
  split at h
  next d rest hreverse =>
    split at h
    · exact hsuffix h
    · obtain h | h := List.mem_append.mp h
      · have hmem : c ∈ s.reverse := by
          rw [hreverse]
          exact List.mem_cons_of_mem _ (List.mem_reverse.mp h)
        exact Or.inr (List.mem_reverse.mp hmem)
      · exact Or.inl h
  next => exact hsuffix h

/-- A segment is hyphenated, joined at blanks, in lower case and a plural. -/
theorem toList_pathSegment (name : String) : (pathSegment name).toList
    = plural (lower (joinBlanks false (hyphenate name.toList))) := by
  unfold pathSegment pluralText kebabCase
  rw [String.toList_ofList, String.toList_ofList]

/-- What the characters of a segment are. -/
theorem mem_pathSegment {name : String} (h : c ∈ (pathSegment name).toList) :
    c ∈ ['-', 'ς', 'i', 'e', 's']
      ∨ ∃ d ∈ name.toList, isBlank d = false ∧ c ∈ lowerChar d := by
  have hyphen : c ∈ lowerChar '-' → c ∈ ['-', 'ς', 'i', 'e', 's'] := by
    rw [show lowerChar '-' = ['-'] by decide, List.mem_singleton]
    rintro rfl
    decide
  rw [toList_pathSegment] at h
  obtain h | h := mem_plural h
  · exact Or.inl (List.mem_cons_of_mem _ (List.mem_cons_of_mem _ h))
  obtain rfl | ⟨d, hd, hc⟩ := mem_lowerAfter h
  · exact Or.inl (by decide)
  obtain rfl | ⟨hd, hink⟩ := mem_joinBlanks hd
  · exact Or.inl (hyphen hc)
  obtain rfl | hd := mem_hyphenate hd
  · exact Or.inl (hyphen hc)
  · exact Or.inr ⟨d, hd, hink, hc⟩

-- ========================================================== left alone

/-- A text without capitals is hyphenated already. -/
theorem hyphenate_eq_self (h : ∀ c ∈ s, c.isUpper = false) : hyphenate s = s := by
  fun_induction hyphenate s with
  | case1 c d rest hcond _ =>
      rw [h d (by simp)] at hcond
      simp at hcond
  | case2 c d rest _ ih =>
      rw [ih fun e he => h e (List.mem_cons_of_mem _ he)]
  | case3 s _ => rfl

/-- A text without blanks is joined already. -/
theorem joinBlanks_eq_self (h : AllInk s) : joinBlanks false s = s := by
  induction s with
  | nil => rfl
  | cons c s ih =>
      obtain ⟨hc, hs⟩ := List.forall_mem_cons.mp h
      unfold joinBlanks
      rw [hc, ih hs]
      rfl

/-- What ends in an `s` is a plural already. -/
theorem plural_eq_self (h : s.getLast? = some 's') : plural s = s := by
  unfold plural
  rw [h]
  rfl

/-- A text in lower case, without blanks and with an `s` at its end is its own
segment. -/
theorem pathSegment_eq_self {name : String} (hlower : ∀ c ∈ name.toList, IsLowered c)
    (hink : AllInk name.toList) (hlast : name.toList.getLast? = some 's') :
    pathSegment name = name := by
  apply String.toList_injective
  rw [toList_pathSegment, hyphenate_eq_self fun c hc => (hlower c hc).isUpper,
    joinBlanks_eq_self hink]
  show plural (lowerAfter [] _) = _
  rw [lowerAfter_of_isLowered hlower, plural_eq_self hlast]

end ApiScaffold
