/-
Modifiers carry nothing. Whatever modifiers are put in front of a member line or
directly after its visibility symbol (`AddsModifiers`), the same member is read
from it, and a line that is no member stays none
(`members_unchanged_by_modifiers`).

Two facts carry this. Modifiers at the start of a text are left out together with
the blanks after them, whatever follows (`dropModifiers_modifierText`). And lines
are trimmed before they are read: where nothing stands behind the modifiers, the
trimming cuts into the blanks after the last one, so leaving out modifiers has to
go together with trimming the end (`dropModifiers_trimEnd`).
-/
import ApiScaffold.Proofs.Diagram.MemberLine
import ApiScaffold.Proofs.Diagram.Modifier
import Mathlib.Data.List.Forall2
import Mathlib.Logic.Relation

namespace ApiScaffold

-- =================================================== statement vocabulary

/-- A modifier as it is written: a word between braces, and the blanks after
it. -/
structure Modifier where
  word : List Char
  gap : List Char := []
  isName : IsName word
  blank : AllBlank gap := by decide

def Modifier.text (m : Modifier) : List Char :=
  '\x7b' :: (m.word ++ '\x7d' :: m.gap)

/-- Modifiers one after another. -/
def modifierText (ms : List Modifier) : List Char := ms.flatMap Modifier.text

/-- The second line is the first with modifiers put in: at its start, before or
behind the indentation, or directly after the visibility symbol that it starts
with. Modifiers may stand before that symbol already. -/
inductive AddsModifiers : List Char → List Char → Prop
  | atStart (ms : List Modifier) {indent rest : List Char} : AllBlank indent →
      AddsModifiers (indent ++ rest) (indent ++ (modifierText ms ++ rest))
  | afterSymbol (access : Access) (earlier ms : List Modifier)
      {indent rest : List Char} : AllBlank indent →
      AddsModifiers (indent ++ (modifierText earlier ++ access.symbol :: rest))
        (indent
          ++ (modifierText earlier ++ access.symbol :: (modifierText ms ++ rest)))

-- ============================================================= modifiers

theorem Modifier.afterModifier?_text (m : Modifier) (rest : List Char) :
    afterModifier? (m.text ++ rest) = some (trimStart rest) := by
  apply afterModifier?_eq_some.mpr
  refine ⟨m.word, m.gap ++ rest, m.isName.ne_nil, m.isName.word, ?_, ?_⟩
  · simp [Modifier.text]
  · exact (trimStart_blanks_append m.blank).symm

theorem modifierText_cons (m : Modifier) (ms : List Modifier) :
    modifierText (m :: ms) = m.text ++ modifierText ms := List.flatMap_cons

/-- All modifiers at the start of a text are left out, with the blanks after
them. -/
theorem dropModifiers_modifierText (ms : List Modifier) (rest : List Char) :
    dropModifiers (trimStart (modifierText ms ++ rest))
      = dropModifiers (trimStart rest) := by
  induction ms with
  | nil => rfl
  | cons m ms ih =>
      have hstart : trimStart (m.text ++ (modifierText ms ++ rest))
          = m.text ++ (modifierText ms ++ rest) :=
        trimStart_cons_of_ink (by decide)
      rw [modifierText_cons, List.append_assoc, hstart,
        dropModifiers_of_some (m.afterModifier?_text _), ih]

/-- The text may be trimmed at both ends before. -/
theorem dropModifiers_trim_modifierText (ms : List Modifier)
    (rest : List Char) :
    dropModifiers (trim (modifierText ms ++ rest)) = dropModifiers (trim rest) := by
  show dropModifiers (trimEnd (trimStart _))
    = dropModifiers (trimEnd (trimStart _))
  rw [dropModifiers_trimEnd, dropModifiers_trimEnd, dropModifiers_modifierText]

-- ================================================================= lines

namespace Member

variable {l l' : List Char}

/-- A line is read from what is left behind the modifiers at its start. -/
theorem unwrap_congr (h : dropModifiers l = dropModifiers l') :
    unwrap l = unwrap l' := by
  unfold unwrap
  rw [h]

/-- A line with a visibility symbol, be it behind modifiers: what follows the
symbol is trimmed and loses the modifiers at its start. -/
theorem unwrap_symbol (access : Access) (ms : List Modifier)
    {indent rest : List Char} (hindent : AllBlank indent) :
    unwrap (trim (indent ++ (modifierText ms ++ access.symbol :: rest)))
      = (access, dropModifiers (trim rest)) := by
  have hink : isBlank access.symbol = false := by cases access <;> rfl
  have hbrace : access.symbol ≠ '\x7b' := by cases access <;> decide
  have htrim : trim (access.symbol :: rest) = access.symbol :: trimEnd rest := by
    unfold trim
    rw [trimStart_cons_of_ink hink, trimEnd_cons_of_ink hink]
  have hdrop : dropModifiers
      (trim (indent ++ (modifierText ms ++ access.symbol :: rest)))
      = access.symbol :: trimEnd rest := by
    rw [trim_append_of_blank hindent, dropModifiers_trim_modifierText, htrim]
    exact dropModifiers_of_ne (by simpa using hbrace)
  unfold unwrap
  simp only [hdrop, ofSymbol?_symbol]
  rw [trim_trimEnd]

/-- Modifiers put into a line change neither its visibility nor what stands
behind its symbol and modifiers. -/
theorem unwrap_of_addsModifiers (h : AddsModifiers l l') :
    unwrap (trim l') = unwrap (trim l) := by
  cases h with
  | atStart ms hindent =>
      apply unwrap_congr
      rw [trim_append_of_blank hindent, trim_append_of_blank hindent,
        dropModifiers_trim_modifierText]
  | afterSymbol access earlier ms hindent =>
      rw [unwrap_symbol access earlier hindent, unwrap_symbol access earlier hindent,
        dropModifiers_trim_modifierText]

/-- The same member is read, or none again, however often modifiers are put
in. -/
theorem ofLine?_of_addsModifiers (h : Relation.ReflTransGen AddsModifiers l l') :
    ofLine? (trim l') = ofLine? (trim l) := by
  induction h with
  | refl => rfl
  | tail _ hadds ih =>
      rw [← ih]
      unfold ofLine?
      rw [unwrap_of_addsModifiers hadds]

/-- A line without content is no member. -/
theorem ofLine?_nil : ofLine? [] = none := by
  have hunwrap : unwrap [] = (.pub, []) := by
    unfold unwrap
    rw [dropModifiers_of_ne (by simp)]
  unfold ofLine?
  rw [hunwrap]
  rfl

end Member

/-- Nothing of the line is lost. -/
theorem AddsModifiers.subset {l l' : List Char}
    (h : Relation.ReflTransGen AddsModifiers l l') : l ⊆ l' := by
  induction h with
  | refl => exact List.Subset.refl l
  | tail _ hadds ih =>
      apply List.Subset.trans ih
      cases hadds with
      | atStart ms _ =>
          intro c hc
          simp only [List.mem_append] at hc ⊢
          tauto
      | afterSymbol access earlier ms _ =>
          intro c hc
          simp only [List.mem_append, List.mem_cons] at hc ⊢
          tauto

-- ================================================================ bodies

/-- Members are read line by line; a blank line gives none. -/
theorem membersOf_eq (body : List Char) :
    membersOf body
      = (lines body).filterMap fun l => Member.ofLine? (trim l) := by
  unfold membersOf contentLines
  rw [List.filterMap_filter, List.filterMap_map]
  apply List.filterMap_congr
  intro l _
  by_cases h : trim l = []
  · simp [h, Member.ofLine?_nil]
  · simp [h]

theorem mem_droppedLines {body line : List Char} :
    line ∈ droppedLines body ↔ (∃ l ∈ lines body, trim l = line) ∧ line ≠ []
      ∧ Member.ofLine? line = none := by
  unfold droppedLines contentLines
  rw [List.mem_filter, List.mem_filter, List.mem_map, and_assoc]
  simp

/-- Lists that are read alike place by place are read alike. -/
theorem filterMap_eq_of_forall₂ {α β : Type} {R : α → α → Prop} {f : α → Option β}
    (hf : ∀ a b, R a b → f b = f a) {as bs : List α} (h : List.Forall₂ R as bs) :
    bs.filterMap f = as.filterMap f := by
  induction h with
  | nil => rfl
  | cons hab _ ih =>
      rw [List.filterMap_cons, List.filterMap_cons, hf _ _ hab, ih]

/-- Modifiers put into the lines of a body, any number of them at the start of a
line, after its visibility symbol, or both, leave its attributes and methods as
they are, and the lines that are no members are still none. A line holds no line
break, so the blanks after the modifiers hold none either. -/
theorem members_unchanged_by_modifiers {body body' : List Char}
    (h : List.Forall₂ (Relation.ReflTransGen AddsModifiers)
      (lines body) (lines body')) :
    attributesOf body' = attributesOf body ∧ methodsOf body' = methodsOf body
      ∧ List.Forall₂
        (fun l l' => trim l ∈ droppedLines body → trim l' ∈ droppedLines body')
        (lines body) (lines body') := by
  have hmembers : membersOf body' = membersOf body := by
    rw [membersOf_eq, membersOf_eq]
    exact filterMap_eq_of_forall₂
      (fun _ _ hadds => Member.ofLine?_of_addsModifiers hadds) h
  refine ⟨?_, ?_, List.forall₂_iff_zip.mpr ⟨h.length_eq, ?_⟩⟩
  · unfold attributesOf
    rw [hmembers]
  · unfold methodsOf
    rw [hmembers]
  · intro l l' hzip hdropped
    have hadds := List.forall₂_zip h hzip
    obtain ⟨-, hink, hnone⟩ := mem_droppedLines.mp hdropped
    apply mem_droppedLines.mpr
    refine ⟨⟨l', (List.of_mem_zip hzip).2, rfl⟩, fun hblank => ?_, ?_⟩
    · have hall := trim_eq_nil_iff.mp hblank
      exact hink (trim_eq_nil_iff.mpr fun c hc => hall c (AddsModifiers.subset hadds hc))
    · rw [Member.ofLine?_of_addsModifiers hadds, hnone]

/-- Modifiers on both sides of a symbol, after a symbol with one behind it, and
before a line that is no member. -/
theorem members_unchanged_by_modifiers_of_three_lines :
    let body := " +total: int\n#\x7bfield\x7d limit: List<int>\n(no member)".toList
    let body' := (" \x7bstatic\x7d \x7bfinal\x7d+\x7bfinal\x7dtotal: int\n"
      ++ "#\x7bstatic\x7d \x7bfield\x7d limit: List<int>\n"
      ++ "\x7bstatic\x7d (no member)").toList
    List.Forall₂ (Relation.ReflTransGen AddsModifiers) (lines body) (lines body')
      ∧ attributesOf body'
        = [⟨"total", some "int", .pub⟩, ⟨"limit", some "List<int>", .prot⟩]
      ∧ methodsOf body' = []
      ∧ "\x7bstatic\x7d (no member)".toList ∈ droppedLines body' := by
  intro body body'
  let static : Modifier :=
    { word := "static".toList, gap := [' ']
      isName := ⟨by decide, forall_mem_of_all (by decide)⟩ }
  let final : Modifier :=
    { word := "final".toList, isName := ⟨by decide, forall_mem_of_all (by decide)⟩ }
  let total := "total: int".toList
  let limit := "\x7bfield\x7d limit: List<int>".toList
  let rest := "(no member)".toList
  have hlines : lines body = [' ' :: '+' :: total, '#' :: limit, rest] := by
    decide +kernel
  have hlines' : lines body'
      = [' ' :: (modifierText [static, final] ++ '+' :: (modifierText [final] ++ total)),
        '#' :: (modifierText [static] ++ limit), modifierText [static] ++ rest] := by
    decide +kernel
  have hadds : List.Forall₂ (Relation.ReflTransGen AddsModifiers)
      (lines body) (lines body') := by
    have hsymbol : AddsModifiers (' ' :: '+' :: total)
        (' ' :: '+' :: (modifierText [final] ++ total)) :=
      .afterSymbol .pub [] [final] (allBlank_singleton (by decide))
    have hstart : AddsModifiers (' ' :: '+' :: (modifierText [final] ++ total)) _ :=
      .atStart [static, final] (allBlank_singleton (by decide))
    rw [hlines, hlines']
    refine .cons ((Relation.ReflTransGen.single hsymbol).tail hstart)
      (.cons ?_ (.cons ?_ .nil))
    · exact .single (.afterSymbol .prot [] [static] allBlank_nil)
    · exact .single (.atStart [static] allBlank_nil)
  obtain ⟨hattributes, hmethods, hdropped⟩ := members_unchanged_by_modifiers hadds
  rw [hattributes, hmethods]
  refine ⟨hadds, by decide +kernel, by decide +kernel, ?_⟩
  rw [hlines, hlines'] at hdropped
  obtain _ | ⟨-, _ | ⟨-, _ | ⟨hrest, -⟩⟩⟩ := hdropped
  exact hrest (by decide +kernel)

end ApiScaffold
