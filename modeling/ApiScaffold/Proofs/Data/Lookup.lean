/-
Looking up in lists of entries. What is found under a key is an entry
(`mem_of_lookup`), and where keys are distinct every entry is found under its own
(`lookup_of_mem`), from either end of the list (`lookup_reverse`), so that the
list is its keys with what is found under them (`eq_filterMap_lookup`).

Maps and fields of objects are such lists, and so are the tables that a program
looks into: a fact about everything that is found in a table is one about its
entries, which can be looked at one by one.
-/
import Mathlib.Data.List.Basic

namespace ApiScaffold

variable {α β : Type}

-- =============================================================== entries

/-- What is found under a key is an entry. -/
theorem mem_of_lookup {κ : Type} [BEq κ] [LawfulBEq κ] {es : List (κ × α)} {k : κ}
    {v : α} (h : es.lookup k = some v) : (k, v) ∈ es := by
  obtain ⟨before, after, rfl, -⟩ := List.lookup_eq_some_iff.mp h
  exact List.mem_append_right _ (List.mem_cons_self ..)

/-- Something is found under the keys of entries. -/
theorem isSome_lookup_iff {es : List (String × α)} {key : String} :
    (es.lookup key).isSome = true ↔ key ∈ es.map Prod.fst := by
  rw [List.lookup_isSome_iff]
  simp only [beq_iff_eq, List.mem_map]
  constructor
  · rintro ⟨e, he, rfl⟩
    exact ⟨e, he, rfl⟩
  · rintro ⟨e, he, rfl⟩
    exact ⟨e, he, rfl⟩

/-- Looking up in a list with a first entry, by cases on its key. -/
theorem lookup_cons_eq (k : String) (e : String × α)
    (es : List (String × α)) :
    (e :: es).lookup k = if k = e.1 then some e.2 else es.lookup k := by
  rw [List.lookup_cons]
  by_cases hk : k = e.1
  · rw [if_pos hk, beq_iff_eq.mpr hk]
  · rw [if_neg hk, beq_eq_false_iff_ne.mpr hk]

-- ========================================================= other entries

/-- Looking up in a list whose values depend on their entries. -/
theorem lookup_map_entry (f : String → α → β) (k : String) :
    ∀ es : List (String × α),
      (es.map fun e => (e.1, f e.1 e.2)).lookup k
        = (es.lookup k).map (f k) := by
  intro es
  induction es with
  | nil => rfl
  | cons e es ih =>
      rw [List.map_cons, lookup_cons_eq, lookup_cons_eq, ih]
      by_cases hk : k = e.1
      · rw [if_pos hk, if_pos hk, hk]
        rfl
      · rw [if_neg hk, if_neg hk]

/-- Looking up in a list of entries made from values is finding a value. -/
theorem lookup_map_pair (key : β → String) (value : β → α) (k : String)
    (xs : List β) :
    (xs.map fun x => (key x, value x)).lookup k
      = (xs.find? (key · == k)).map value := by
  induction xs with
  | nil => rfl
  | cons x xs ih =>
      rw [List.map_cons, lookup_cons_eq, List.find?_cons, ih]
      by_cases h : k = key x
      · rw [if_pos h, beq_iff_eq.mpr h.symm]
        rfl
      · rw [if_neg h, beq_eq_false_iff_ne.mpr (Ne.symm h)]

-- ========================================================= distinct keys

/-- With distinct keys an entry is what is found under its key. -/
theorem lookup_of_mem {es : List (String × α)} (h : (es.map Prod.fst).Nodup)
    {e : String × α} (he : e ∈ es) : es.lookup e.1 = some e.2 := by
  obtain ⟨before, after, hsplit⟩ := List.append_of_mem he
  rw [hsplit, List.map_append, List.map_cons, List.nodup_append] at h
  rw [List.lookup_eq_some_iff]
  refine ⟨before, after, hsplit, fun p hp => ?_⟩
  have hne := h.2.2 p.1 (List.mem_map_of_mem hp) e.1 (List.mem_cons_self ..)
  exact bne_iff_ne.mpr (Ne.symm hne)

/-- With distinct keys the direction of a search does not matter. -/
theorem lookup_reverse {k : String} :
    ∀ {es : List (String × α)}, (es.map Prod.fst).Nodup →
      es.reverse.lookup k = es.lookup k := by
  intro es
  induction es with
  | nil => intro _; rfl
  | cons e es ih =>
      intro h
      obtain ⟨hk, hes⟩ := List.nodup_cons.mp h
      rw [List.reverse_cons, List.lookup_append, ih hes, lookup_cons_eq,
        lookup_cons_eq]
      by_cases heq : k = e.1
      · have hnone : es.lookup k = none := by
          rw [List.lookup_eq_none_iff]
          intro e' he'
          have hne : k ≠ e'.1 := by
            intro hke
            exact hk (heq ▸ hke ▸ List.mem_map_of_mem he')
          simpa using hne
        rw [if_pos heq, if_pos heq, hnone]
        rfl
      · rw [if_neg heq, if_neg heq, List.lookup_nil, Option.or_none]

/-- A list of entries with distinct keys is its keys with their values. -/
theorem eq_filterMap_lookup {es : List (String × α)} (h : (es.map Prod.fst).Nodup) :
    es = (es.map Prod.fst).filterMap fun k => (es.lookup k).map (k, ·) := by
  induction es with
  | nil => rfl
  | cons e es ih =>
      obtain ⟨k, v⟩ := e
      simp only [List.map_cons, List.nodup_cons] at h
      obtain ⟨hk, hes⟩ := h
      have hrest : ∀ k' ∈ es.map Prod.fst,
          ((k, v) :: es).lookup k' = es.lookup k' := by
        intro k' hk'
        have hne : ¬ k' = k := fun heq => hk (heq ▸ hk')
        rw [lookup_cons_eq, if_neg hne]
      have hhead : ((k, v) :: es).lookup k = some v := by
        rw [lookup_cons_eq, if_pos rfl]
      rw [List.map_cons, List.filterMap_cons, hhead]
      refine congrArg ((k, v) :: ·) ((ih hes).trans ?_)
      exact List.filterMap_congr fun k' hk' => by rw [hrest k' hk']

end ApiScaffold
