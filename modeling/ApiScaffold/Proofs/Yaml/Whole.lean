/-
Whole texts. The text of a mapping is one document: it starts at the first column,
holds only characters a reader takes, and nothing but its last line break follows
the fields. So it is read back as the mapping that `asRead` makes of it
(`read_text`), and that is the mapping itself if and only if no text in it holds a
next-line character in single quotes (`asRead_eq_self_iff`).
-/
import ApiScaffold.Proofs.Yaml.Characters
import ApiScaffold.Proofs.Yaml.ReadBack

namespace ApiScaffold.Yaml

-- =============================================================== as read

mutual

/-- The texts in a value, its keys left out. -/
def texts : Json → List String
  | .str s => [s]
  | .arr items => textsOfItems items
  | .obj fields => textsOfFields fields
  | _ => []

/-- The texts in the items of a sequence. -/
def textsOfItems : List Json → List String
  | [] => []
  | item :: items => texts item ++ textsOfItems items

/-- The texts in the values of a mapping. -/
def textsOfFields : List (String × Json) → List String
  | [] => []
  | (_, value) :: fields => texts value ++ textsOfFields fields

end

/-- A text that reading leaves as it is. -/
def Kept (s : String) : Prop := '\u0085' ∈ s.toList → styleOf s.toList ≠ .single

instance (s : String) : Decidable (Kept s) :=
  inferInstanceAs (Decidable ('\u0085' ∈ s.toList → styleOf s.toList ≠ .single))

theorem readText_toList_eq_iff {s : String} :
    String.ofList (readText s.toList) = s ↔ Kept s := by
  rw [← String.toList_inj, String.toList_ofList]
  exact readText_eq_self_iff

mutual

/-- A value is read as it is where each of its texts is. -/
theorem asRead_eq_self_iff (j : Json) : asRead j = j ↔ ∀ s ∈ texts j, Kept s := by
  cases j with
  | str s =>
      rw [asRead, texts, Json.str.injEq, List.forall_mem_singleton]
      exact readText_toList_eq_iff
  | arr items =>
      rw [asRead, texts, Json.arr.injEq]
      exact asReadItems_eq_self_iff items
  | obj fields =>
      rw [asRead, texts, Json.obj.injEq]
      exact asReadFields_eq_self_iff fields
  | _ => exact iff_of_true rfl (List.forall_mem_nil _)

theorem asReadItems_eq_self_iff (items : List Json) :
    asReadItems items = items ↔ ∀ s ∈ textsOfItems items, Kept s := by
  cases items with
  | nil => exact iff_of_true rfl (List.forall_mem_nil _)
  | cons item items =>
      rw [asReadItems, textsOfItems, List.cons.injEq, List.forall_mem_append,
        asRead_eq_self_iff item, asReadItems_eq_self_iff items]

theorem asReadFields_eq_self_iff (fields : List (String × Json)) :
    asReadFields fields = fields ↔ ∀ s ∈ textsOfFields fields, Kept s := by
  cases fields with
  | nil => exact iff_of_true rfl (List.forall_mem_nil _)
  | cons e fields =>
      obtain ⟨key, value⟩ := e
      rw [asReadFields, textsOfFields, List.cons.injEq, List.forall_mem_append,
        Prod.mk.injEq, asRead_eq_self_iff value, asReadFields_eq_self_iff fields]
      exact ⟨fun h => ⟨h.1.2, h.2⟩, fun h => ⟨⟨rfl, h.1⟩, h.2⟩⟩

end

-- =========================================================== whole texts

section whole

variable {fields : List (String × Json)}

/-- A line break at the end of a text ends every block. -/
theorem follows_end : Follows 0 false ['\n'] :=
  ⟨0, [], rfl, Nat.le_refl 0, .inl rfl, fun _ => .inr rfl⟩

/-- The text of a mapping: its fields from the first column on, a line break behind
them, and only characters that a reader takes. -/
theorem exists_text {levels : Nat} (hne : fields ≠ []) (h : (Json.obj fields).Readable)
    (hlegible : Legible (levels + 1) (.obj fields)) (hfit : 2 * levels + 2 < bestWidth) :
    ∃ t, (text (.obj fields)).toList = t ++ ['\n'] ∧ FieldStart 0 t
      ∧ (∀ c ∈ t ++ ['\n'], isReadable c = true)
      ∧ ∀ fuel, 2 * t.length < fuel →
          readNode fuel 0 0 (t ++ ['\n']) = some (asRead (.obj fields), ['\n']) := by
  have hclean : (putNode .root none {} (.obj fields)).Clean :=
    clean_putNode h .root none {} (List.forall_mem_nil _)
  cases h with | obj hkeys hfields =>
  have hall : ∀ e ∈ fields, LegibleKey e.1.toList ∧ ReadsInline levels e.2
      ∧ ReadsBelow levels e.2 := by
    cases hlegible with
    | leaf _ hleaf => exact absurd (List.isEmpty_iff.mp hleaf) hne
    | obj hlegible hvalues =>
        exact fun e he => ⟨hlegible e he, (hvalues e he).readsBack (hfields e he)⟩
  obtain ⟨hopen, hat⟩ := Pen.wrote_indentTo_of_fresh (p := {}) 0 rfl (Nat.le_refl 0)
    fun _ => rfl
  have hinside : 0 + 2 * levels + 2 < bestWidth := by omega
  obtain ⟨t, hwrote, hfresh, hstart, hread⟩ :=
    exists_putFields hne hall hinside ⟨hopen, hat⟩
  have hput : putNode .root none {} (.obj fields) = putFields 0 {} fields :=
    putNode_fields .root none {} hne
  rw [← hput] at hwrote hfresh
  obtain ⟨hend, -⟩ := Pen.wrote_indentTo_of_leave 0 (.inl hfresh)
  have hwritten : ((putNode .root none {} (.obj fields)).indentTo 0).written
      = (t ++ ['\n']).reverse := by
    have hall : _ = _ := hwrote.trans hend
    rw [hall, List.append_nil]
    rfl
  have htext : (text (.obj fields)).toList = t ++ ['\n'] := by
    unfold text
    simp only [endsOpen, Bool.false_eq_true, if_false, String.toList_ofList]
    rw [hwritten, List.reverse_reverse]
  have hchars : ∀ c ∈ t ++ ['\n'], isReadable c = true := by
    intro c hc
    refine hclean.indentTo 0 c ?_
    rw [hwritten]
    exact List.mem_reverse.mpr hc
  refine ⟨t, htext, hstart, hchars, fun fuel hfuel => ?_⟩
  obtain ⟨fuel, rfl⟩ : ∃ n, fuel = n + 1 := ⟨fuel - 1, by omega⟩
  exact readNode_fields hkeys hstart (Nat.zero_le _)
    (hread fuel ['\n'] (by omega) follows_end rfl)

/-- The text of a mapping with legible keys is read as the mapping that `asRead` makes
of it. -/
theorem read_text {levels : Nat} (hne : fields ≠ []) (h : (Json.obj fields).Readable)
    (hlegible : Legible (levels + 1) (.obj fields)) (hfit : 2 * levels + 2 < bestWidth) :
    read (text (.obj fields)).toList = some (asRead (.obj fields)) := by
  obtain ⟨t, htext, hstart, hchars, hread⟩ := exists_text hne h hlegible hfit
  have hbreaks : unifyBreaks (t ++ ['\n']) = t ++ ['\n'] :=
    unifyBreaks_of_not_mem fun hmem => by cases hchars _ hmem
  have hspot : seek 0 false false (t ++ ['\n']) = ⟨t ++ ['\n'], 0, false⟩ :=
    seek_of_starts (hstart ['\n']).1
  have hnode := hread (2 * (t ++ ['\n']).length + 2)
    (by rw [List.length_append]; omega)
  have hsome : (t ++ ['\n']).isEmpty = false :=
    List.isEmpty_eq_false_iff.mpr (hstart ['\n']).1.ne_nil
  rw [htext]
  unfold read
  simp only [hbreaks, List.all_eq_true.mpr hchars, if_true, hspot, hsome, hnode]
  rfl

end whole

end ApiScaffold.Yaml
