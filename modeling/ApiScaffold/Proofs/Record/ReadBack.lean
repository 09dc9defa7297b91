/-
Records that are read back. A field that is there is read by its reader,
whatever its default would be; a list is read back if its items are, and a
nullable value if its reader reads it back and its form is not null itself.
A record is then read back field by field, and what else stands in the
object is passed over.
-/
import ApiScaffold.Record.Scalar

namespace ApiScaffold

variable {α : Type}

-- ================================================================= fields

theorem field_of_lookup {fs : List (String × Json)} {name : String}
    {reader : Reader α} {j : Json} {a : α} (hj : fs.lookup name = some j)
    (h : reader j = .ok a) : field fs name reader = .ok a := by
  unfold field
  rw [hj]
  simp only
  rw [h]
  rfl

theorem fieldOr_of_lookup {fs : List (String × Json)} {name : String}
    {default : α} {reader : Reader α} {j : Json} {a : α}
    (hj : fs.lookup name = some j) (h : reader j = .ok a) :
    fieldOr fs name default reader = .ok a := by
  unfold fieldOr
  rw [hj]
  simp only
  rw [h]
  rfl

-- ================================================================= values

/-- A nullable value is read back unless its form is null. -/
theorem readNullable_orNull {f : α → Json} {reader : Reader α}
    (hread : ∀ a, reader (f a) = .ok a) (hnull : ∀ a, f a ≠ .null)
    (o : Option α) : readNullable reader (Json.orNull f o) = .ok o := by
  cases o with
  | none => rfl
  | some a =>
      have hvalue : readNullable reader (f a) = (reader (f a)).map some := by
        unfold readNullable
        split
        next heq => exact absurd heq (hnull a)
        next => rfl
      show readNullable reader (f a) = _
      rw [hvalue, hread]
      rfl

theorem items_map {f : α → Json} {reader : Reader α}
    (hread : ∀ a, reader (f a) = .ok a) (xs : List α) (i : Nat) :
    Checked.items reader i (xs.map f) = .ok xs := by
  induction xs generalizing i with
  | nil => rfl
  | cons x xs ih =>
      rw [List.map_cons, Checked.items, hread, ih]
      rfl

/-- A list is read back item by item. -/
theorem readList_map {f : α → Json} {reader : Reader α}
    (hread : ∀ a, reader (f a) = .ok a) (xs : List α) :
    readList reader (.arr (xs.map f)) = .ok xs :=
  items_map hread xs 0

end ApiScaffold
