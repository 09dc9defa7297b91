/-
Member modifiers such as `{static}`: a word between braces. They
carry no information here. Inside a body they keep their braces from
ending the block, and in front of a member they are left out.
-/
import ApiScaffold.Text.Blank
import ApiScaffold.Text.Word

namespace ApiScaffold

/-- The number of characters of a modifier after its opening brace,
given the text after that brace. -/
def modifierWidth? (s : List Char) : Option Nat :=
  match s.takeWhile isWord, s.dropWhile isWord with
  | _ :: ws, '\x7d' :: _ => some (ws.length + 2)
  | _, _ => none

/-- The text after a modifier and the blanks that follow it, if the text
starts with one. -/
def afterModifier? : List Char → Option (List Char)
  | '\x7b' :: s => (modifierWidth? s).map fun width => trimStart (s.drop width)
  | _ => none

theorem afterModifier?_length {s r : List Char} (h : afterModifier? s = some r) :
    r.length < s.length := by
  match s with
  | [] => simp [afterModifier?] at h
  | c :: cs =>
    by_cases hc : c = '\x7b'
    · subst hc
      simp only [afterModifier?, Option.map_eq_some_iff] at h
      obtain ⟨w, -, rfl⟩ := h
      have := (List.dropWhile_suffix isBlank (l := cs.drop w)).length_le
      simp only [List.length_drop] at this
      simp only [trimStart, List.length_cons]
      omega
    · simp [afterModifier?, hc] at h

/-- The text without the modifiers at its start. -/
def dropModifiers (s : List Char) : List Char :=
  match _h : afterModifier? s with
  | some r => dropModifiers r
  | none => s
termination_by s.length
decreasing_by exact afterModifier?_length ‹_›

end ApiScaffold
