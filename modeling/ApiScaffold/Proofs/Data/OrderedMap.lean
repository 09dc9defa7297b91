/-
Laws of ordered maps. A write moves no key: a known key keeps its place
and a new one comes last, so after any list of writes the keys are those
written, in the order of their first writes (`keys_putAll`), and the
value under each is that of its last write (`get?_putAll`). Both together
give the whole map (`entries_ofList`).

The keys of a map are distinct by its construction (`nodup_keys`). That is
what makes a map its keys with their values (`entries_eq`).
-/
import ApiScaffold.Data.OrderedMap
import ApiScaffold.Proofs.Data.Lookup
import Mathlib.Data.List.Basic

namespace ApiScaffold.OrderedMap

variable {α β : Type}

-- ============================================================== one write

/-- No key occurs twice. -/
theorem nodup_keys (m : OrderedMap α) : m.keys.Nodup := m.distinct

/-- Maps with the same entries are the same. -/
@[ext] theorem ext {m m' : OrderedMap α} (h : m.entries = m'.entries) : m = m' := by
  cases m
  cases m'
  cases h
  rfl

@[simp] theorem keys_empty : (empty : OrderedMap α).keys = [] := rfl

@[simp] theorem get?_empty (key : String) :
    (empty : OrderedMap α).get? key = none := rfl

/-- A key occurs when it is among the keys. -/
theorem has_iff {m : OrderedMap α} {key : String} :
    m.has key = true ↔ key ∈ m.keys := isSome_lookup_iff

/-- A value under a key is that of an entry. -/
theorem mem_entries_of_get? {m : OrderedMap α} {key : String} {v : α}
    (h : m.get? key = some v) : (key, v) ∈ m.entries := mem_of_lookup h

/-- An entry is the value under its key. -/
theorem get?_of_mem {m : OrderedMap α} {e : String × α} (he : e ∈ m.entries) :
    m.get? e.1 = some e.2 := lookup_of_mem m.distinct he

/-- An entry is determined by its key. -/
theorem eq_of_key_eq {m : OrderedMap α} {e e' : String × α}
    (he : e ∈ m.entries) (he' : e' ∈ m.entries) (heq : e.1 = e'.1) : e = e' := by
  have hget := get?_of_mem he
  rw [heq, get?_of_mem he'] at hget
  injection hget with hvalue
  exact Prod.ext heq hvalue.symm

/-- A known key keeps its place, a new one comes last. -/
theorem keys_put (m : OrderedMap α) (key : String) (v : α) :
    (m.put key v).keys
      = if key ∈ m.keys then m.keys else m.keys ++ [key] :=
  keys_putEntry key v m.entries

/-- A write into a list of entries decides what is found under its key. -/
private theorem lookup_putEntry (key : String) (v : α) (k : String) :
    ∀ es : List (String × α),
      (putEntry key v es).lookup k
        = if k = key then some v else es.lookup k := by
  intro es
  induction es with
  | nil =>
      by_cases hk : k = key <;> simp [putEntry, hk]
  | cons e es ih =>
      obtain ⟨k', w⟩ := e
      unfold putEntry
      by_cases hk' : k' = key
      · rw [if_pos hk', lookup_cons_eq, lookup_cons_eq, hk']
        by_cases hk : k = key <;> simp [hk]
      · rw [if_neg hk', lookup_cons_eq, lookup_cons_eq, ih]
        by_cases hk : k = key
        · have hne : ¬ key = k' := fun h => hk' h.symm
          simp [hk, hne]
        · simp [hk]

/-- A write decides the value under its key and under no other. -/
theorem get?_put (m : OrderedMap α) (key : String) (v : α) (k : String) :
    (m.put key v).get? k = if k = key then some v else m.get? k :=
  lookup_putEntry key v k m.entries

/-- An entry after a write is the one written or was there before. -/
private theorem mem_putEntry {key : String} {v : α} {e : String × α} :
    ∀ {es : List (String × α)}, e ∈ putEntry key v es →
      e = (key, v) ∨ e ∈ es := by
  intro es
  induction es with
  | nil =>
      intro he
      exact Or.inl (by simpa [putEntry] using he)
  | cons e' es ih =>
      obtain ⟨k, w⟩ := e'
      intro he
      unfold putEntry at he
      split at he
      next hk =>
        rcases List.mem_cons.mp he with rfl | he'
        · exact Or.inl (by rw [hk])
        · exact Or.inr (List.mem_cons_of_mem _ he')
      next =>
        rcases List.mem_cons.mp he with rfl | he'
        · exact Or.inr (List.mem_cons_self ..)
        · exact (ih he').imp_right (List.mem_cons_of_mem _)

/-- An entry after a write is the one written or was there before. -/
theorem mem_entries_put {m : OrderedMap α} {key : String} {v : α}
    {e : String × α} (he : e ∈ (m.put key v).entries) :
    e = (key, v) ∨ e ∈ m.entries :=
  mem_putEntry he

/-- The keys after a write are those before and the key written. -/
theorem mem_keys_put {m : OrderedMap α} {key : String} {v : α} {k : String} :
    k ∈ (m.put key v).keys ↔ k = key ∨ k ∈ m.keys := by
  rw [keys_put]
  by_cases hmem : key ∈ m.keys
  · rw [if_pos hmem]
    exact ⟨Or.inr, fun h => h.elim (fun hk => hk ▸ hmem) id⟩
  · rw [if_neg hmem]
    simp only [List.mem_append, List.mem_singleton]
    exact Or.comm

/-- A new key is written at the end of a list of entries. -/
private theorem putEntry_of_not_mem {key : String} (v : α) :
    ∀ {es : List (String × α)}, key ∉ es.map Prod.fst →
      putEntry key v es = es ++ [(key, v)] := by
  intro es
  induction es with
  | nil => intro _; rfl
  | cons e es ih =>
      obtain ⟨k, w⟩ := e
      intro h
      rw [List.map_cons, List.mem_cons, not_or] at h
      rw [putEntry, if_neg (Ne.symm h.1), ih h.2]
      rfl

/-- A new key comes last and changes no other entry. -/
theorem entries_put_of_not_mem {m : OrderedMap α} {key : String}
    (h : key ∉ m.keys) (v : α) :
    (m.put key v).entries = m.entries ++ [(key, v)] :=
  putEntry_of_not_mem v h

-- ============================================================ many writes

@[simp] theorem putAll_nil (m : OrderedMap α) : m.putAll [] = m := rfl

theorem putAll_cons (m : OrderedMap α) (e : String × α)
    (es : List (String × α)) :
    m.putAll (e :: es) = (m.put e.1 e.2).putAll es := rfl

/-- New keys come last, in the order in which they are written. -/
theorem entries_putAll_of_nodup :
    ∀ {es : List (String × α)} {m : OrderedMap α},
      (m.keys ++ es.map Prod.fst).Nodup →
        (m.putAll es).entries = m.entries ++ es := by
  intro es
  induction es with
  | nil => intro m _; exact (List.append_nil _).symm
  | cons e es ih =>
      intro m h
      have hnew : e.1 ∉ m.keys := fun hmem =>
        (List.nodup_append.mp h).2.2 _ hmem _ (List.mem_cons_self ..) rfl
      have hkeys : (m.put e.1 e.2).keys = m.keys ++ [e.1] := by
        rw [keys_put, if_neg hnew]
      rw [putAll_cons, ih, entries_put_of_not_mem hnew, List.append_assoc]
      · rfl
      · rw [hkeys, List.append_assoc]
        exact h

/-- The keys after many writes are those before and the keys written. -/
theorem mem_keys_putAll {k : String} :
    ∀ {es : List (String × α)} {m : OrderedMap α},
      k ∈ (m.putAll es).keys ↔ k ∈ m.keys ∨ k ∈ es.map Prod.fst := by
  intro es
  induction es with
  | nil => intro m; simp
  | cons e es ih =>
      intro m
      rw [putAll_cons, ih, mem_keys_put, List.map_cons, List.mem_cons]
      grind

/-- An entry after many writes is one of those written or was there
before. -/
theorem mem_entries_putAll {e : String × α} :
    ∀ {es : List (String × α)} {m : OrderedMap α},
      e ∈ (m.putAll es).entries → e ∈ es ∨ e ∈ m.entries := by
  intro es
  induction es with
  | nil => intro m he; exact Or.inr he
  | cons e' es ih =>
      intro m he
      rw [putAll_cons] at he
      rcases ih he with hes | hm
      · exact Or.inl (List.mem_cons_of_mem _ hes)
      · rcases mem_entries_put hm with rfl | hm'
        · exact Or.inl (List.mem_cons_self ..)
        · exact Or.inr hm'

/-- A map is its own entries, written in order. -/
theorem entries_ofList_of_nodup {es : List (String × α)}
    (h : (es.map Prod.fst).Nodup) : (ofList es).entries = es :=
  entries_putAll_of_nodup h

/-- The last write of a key counts; a key not written keeps its value. -/
theorem get?_putAll (k : String) :
    ∀ (es : List (String × α)) (m : OrderedMap α),
      (m.putAll es).get? k = (es.reverse.lookup k).or (m.get? k) := by
  intro es
  induction es with
  | nil => intro m; rfl
  | cons e es ih =>
      intro m
      rw [putAll_cons, ih, get?_put, List.reverse_cons, List.lookup_append,
        lookup_cons_eq]
      cases es.reverse.lookup k with
      | some v => rfl
      | none =>
          by_cases hk : k = e.1 <;> simp [hk]

/-- Keys stand in the order of their first writes. -/
theorem keys_putAll :
    ∀ (es : List (String × α)) (m : OrderedMap α),
      (m.putAll es).keys
        = m.keys ++ ((es.map Prod.fst).removeAll m.keys).eraseDups := by
  intro es
  induction es with
  | nil => intro m; simp [List.removeAll]
  | cons e es ih =>
      intro m
      rw [putAll_cons, ih, keys_put]
      by_cases hmem : e.1 ∈ m.keys
      · rw [if_pos hmem]
        simp [List.removeAll, hmem]
      · rw [if_neg hmem]
        simp only [List.removeAll, List.map_cons, List.append_assoc,
          List.singleton_append]
        rw [List.filter_cons_of_pos (by simpa using hmem),
          List.eraseDups_cons, List.filter_filter]
        congr 3
        refine List.filter_congr fun k _ => ?_
        simp only [List.elem_eq_mem, List.mem_append, List.mem_singleton]
        by_cases hk : k = e.1 <;> simp [hk, hmem]

-- ============================================================= whole maps

/-- A map is its keys with their values. -/
theorem entries_eq (m : OrderedMap α) :
    m.entries = m.keys.filterMap fun k => (m.get? k).map (k, ·) :=
  eq_filterMap_lookup m.distinct

/-- The keys written, in the order of their first writes. -/
theorem keys_ofList (es : List (String × α)) :
    (ofList es).keys = (es.map Prod.fst).eraseDups := by
  unfold ofList
  rw [keys_putAll es empty]
  unfold List.removeAll
  rw [List.filter_eq_self.mpr (by simp)]
  rfl

/-- Under each key stands what was written last. -/
theorem get?_ofList (es : List (String × α)) (k : String) :
    (ofList es).get? k = es.reverse.lookup k := by
  unfold ofList
  rw [get?_putAll, get?_empty, Option.or_none]

/-- The map written by a list of entries: keys in the order of their first
writes, each with the value of its last. -/
theorem entries_ofList (es : List (String × α)) :
    (ofList es).entries
      = (es.map Prod.fst).eraseDups.filterMap
          fun k => (es.reverse.lookup k).map (k, ·) := by
  rw [entries_eq, keys_ofList]
  refine List.filterMap_congr fun k _ => ?_
  rw [get?_ofList]

-- ======================================================== changing values

/-- Changing the values changes no key. -/
theorem keys_mapValues (f : α → β) (m : OrderedMap α) :
    (m.mapValues f).keys = m.keys := by
  unfold keys mapValues
  rw [List.map_map]
  rfl

end ApiScaffold.OrderedMap
