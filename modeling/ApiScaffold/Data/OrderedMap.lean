/-
Maps from strings that remember the order in which keys were first
written. Writing an existing key replaces its value in place; writing a
new key appends it. No key occurs twice: a map carries the proof, and every
operation keeps it.
-/

namespace ApiScaffold

/-- Entries with distinct keys, in the order of first writing. -/
structure OrderedMap (α : Type) where
  entries : List (String × α)
  distinct : (entries.map Prod.fst).Nodup
deriving Repr, DecidableEq

namespace OrderedMap

variable {α β : Type}

/-- The map without entries. -/
def empty : OrderedMap α := ⟨[], List.nodup_nil⟩

instance : Inhabited (OrderedMap α) := ⟨empty⟩

/-- The keys in order. -/
def keys (m : OrderedMap α) : List String := m.entries.map Prod.fst

/-- The value under a key. -/
def get? (m : OrderedMap α) (key : String) : Option α := m.entries.lookup key

/-- Whether the key occurs. -/
def has (m : OrderedMap α) (key : String) : Bool := (m.get? key).isSome

/-- Write into a list of entries. -/
def putEntry (key : String) (value : α) : List (String × α) → List (String × α)
  | [] => [(key, value)]
  | (k, v) :: rest =>
    if k = key then (k, value) :: rest else (k, v) :: putEntry key value rest

/-- A known key keeps its place in a list of entries, a new one comes last. -/
theorem keys_putEntry (key : String) (v : α) (es : List (String × α)) :
    (putEntry key v es).map Prod.fst
      = if key ∈ es.map Prod.fst then es.map Prod.fst
        else es.map Prod.fst ++ [key] := by
  induction es with
  | nil => rfl
  | cons e es ih =>
      obtain ⟨k, w⟩ := e
      unfold putEntry
      by_cases hk : k = key
      · rw [if_pos hk]
        simp [hk]
      · rw [if_neg hk, List.map_cons, ih]
        have hne : key ≠ k := fun h => hk h.symm
        by_cases hmem : key ∈ es.map Prod.fst
        · simp [hmem]
        · simp [hmem, hne]

/-- Distinct keys stay distinct when one is written. -/
theorem nodup_putEntry (key : String) (v : α) {es : List (String × α)}
    (h : (es.map Prod.fst).Nodup) : ((putEntry key v es).map Prod.fst).Nodup := by
  rw [keys_putEntry]
  split
  next => exact h
  next hmem =>
    rw [List.nodup_append]
    refine ⟨h, by simp, fun a ha b hb => ?_⟩
    rw [List.mem_singleton] at hb
    subst hb
    exact fun hab => hmem (hab ▸ ha)

/-- Write a value under a key. -/
def put (m : OrderedMap α) (key : String) (value : α) : OrderedMap α where
  entries := putEntry key value m.entries
  distinct := nodup_putEntry key value m.distinct

/-- Write all entries of a list, in order. -/
def putAll (m : OrderedMap α) (entries : List (String × α)) : OrderedMap α :=
  entries.foldl (fun m (k, v) => m.put k v) m

/-- The map that results from writing the entries into an empty map. -/
def ofList (entries : List (String × α)) : OrderedMap α := empty.putAll entries

/-- Apply a function to every value. -/
def mapValues (f : α → β) (m : OrderedMap α) : OrderedMap β where
  entries := m.entries.map fun (k, v) => (k, f v)
  distinct := by
    rw [List.map_map]
    exact m.distinct

/-- The map without the given keys. -/
def without (m : OrderedMap α) (names : List String) : OrderedMap α where
  entries := m.entries.filter fun (k, _) => !names.contains k
  distinct := m.distinct.sublist (List.filter_sublist.map Prod.fst)

end OrderedMap

end ApiScaffold
