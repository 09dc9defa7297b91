/-
Values that are read back from their indented text. `Readable` says which
those are: integers within the limit of the reader, distinct keys in every
object, and no doubles; null, booleans and texts of any characters are.

The reader is handed a value with whatever follows it, and `ReadsBack` is
what it owes at every depth: the value, and the text that follows untouched.
Items and fields owe the same in turn, one after another up to the closing
bracket (`items_indentedItems`, `fields_indentedFields`). No more fuel is
used than characters are read, since every call but the first has a bracket,
a comma or a blank behind it.
-/
import ApiScaffold.Proofs.Data.OrderedMap
import ApiScaffold.Proofs.Json.Token

namespace ApiScaffold

namespace Json

/-- A value that a reader can give back: its integers are not too long, its
keys are distinct, and it holds no double. -/
inductive Readable : Json → Prop
  | null : Readable .null
  | bool (b : Bool) : Readable (.bool b)
  | int {n : Int} (h : n.natAbs < 10 ^ digitLimit) : Readable (.int n)
  | str (s : String) : Readable (.str s)
  | arr {items : List Json} (h : ∀ j ∈ items, Readable j) :
      Readable (.arr items)
  | obj {fields : List (String × Json)} (hkeys : (fields.map Prod.fst).Nodup)
      (h : ∀ e ∈ fields, Readable e.2) : Readable (.obj fields)

/-- A value is read back at any depth, up to what follows it. -/
def ReadsBack (j : Json) : Prop :=
  ∀ depth fuel rest, (indentedAt depth j).length ≤ fuel → NumberEnd rest →
    value fuel (indentedAt depth j ++ rest) = .ok (j, rest)

-- ============================================================ first signs

theorem isSpace_of_isDigit {c : Char} (hc : c.isDigit = true) :
    isSpace c = false := by
  rw [Bool.eq_false_iff]
  intro hspace
  simp only [isSpace, decide_eq_true_eq] at hspace
  rcases hspace with rfl | rfl | rfl | rfl <;> cases hc

/-- The first character of a value is no blank and closes nothing. -/
theorem Readable.exists_cons {j : Json} (h : j.Readable) (depth : Nat) :
    ∃ c s, indentedAt depth j = c :: s ∧ isSpace c = false ∧ c ≠ ']' := by
  cases h with
  | null => exact ⟨_, _, rfl, by decide, by decide⟩
  | bool b => cases b <;> exact ⟨_, _, rfl, by decide, by decide⟩
  | int h =>
      rename_i n
      obtain ⟨c, s, hc, hdigit, -⟩ := exists_decimal_cons n.natAbs
      show ∃ c s, intText n = c :: s ∧ _
      unfold intText
      split
      · exact ⟨_, _, rfl, by decide, by decide⟩
      · refine ⟨c, s, hc, isSpace_of_isDigit hdigit, ?_⟩
        rintro rfl
        cases hdigit
  | str s => exact ⟨_, _, rfl, by decide, by decide⟩
  | arr h =>
      rename_i items
      cases items <;> exact ⟨_, _, rfl, by decide, by decide⟩
  | obj hkeys h =>
      rename_i fields
      cases fields <;> exact ⟨_, _, rfl, by decide, by decide⟩

/-- Fuel that covers the text of a value is not spent. -/
theorem Readable.exists_succ {j : Json} (h : j.Readable) {depth fuel : Nat}
    (hfuel : (indentedAt depth j).length ≤ fuel) : ∃ n, fuel = n + 1 := by
  obtain ⟨c, s, hc, -⟩ := h.exists_cons depth
  rw [hc, List.length_cons] at hfuel
  exact ⟨fuel - 1, by omega⟩

/-- Nothing is skipped in front of other characters. -/
theorem skipSpace_cons {c : Char} (hc : isSpace c = false) (s : List Char) :
    skipSpace (c :: s) = c :: s :=
  List.dropWhile_cons_of_neg (by simp [hc])

/-- No white space stands in front of a value. -/
theorem Readable.skipSpace {j : Json} (h : j.Readable) (depth : Nat)
    (rest : List Char) :
    Json.skipSpace (indentedAt depth j ++ rest)
      = indentedAt depth j ++ rest := by
  obtain ⟨c, s, hc, hspace, -⟩ := h.exists_cons depth
  rw [hc]
  exact skipSpace_cons hspace _

/-- A line break is skipped with the indentation behind it. -/
theorem skipSpace_lineBreak (depth : Nat) (s : List Char) :
    skipSpace (lineBreak depth ++ s) = skipSpace s := by
  unfold skipSpace
  refine List.dropWhile_append_of_pos fun c hc => ?_
  rcases List.mem_cons.mp hc with rfl | hc
  · decide
  · rw [List.eq_of_mem_replicate hc]
    decide

/-- A number ends at a line break. -/
theorem numberEnd_lineBreak (depth : Nat) (s : List Char) :
    NumberEnd (lineBreak depth ++ s) := by
  intro c hc
  injection hc with hc
  subst hc
  decide

/-- A number ends at a comma. -/
theorem numberEnd_comma (s : List Char) : NumberEnd (',' :: s) := by
  intro c hc
  injection hc with hc
  subst hc
  decide

-- ================================================================= arrays

/-- Behind the last item stands the closing bracket, on its own line. -/
theorem indentedItems_nil (depth : Nat) (rest : List Char) :
    indentedItems depth [] ++ rest = lineBreak depth ++ ']' :: rest := by
  rw [indentedItems, List.append_assoc]
  rfl

/-- Each further item stands behind a comma, on its own line. -/
theorem indentedItems_cons (depth : Nat) (item : Json) (items : List Json)
    (rest : List Char) :
    indentedItems depth (item :: items) ++ rest
      = ',' :: (lineBreak (depth + 2) ++ (indentedAt (depth + 2) item
          ++ (indentedItems depth items ++ rest))) := by
  rw [indentedItems]
  simp only [List.cons_append, List.append_assoc]

/-- A number ends where items follow or the array does. -/
theorem numberEnd_indentedItems (depth : Nat) (items : List Json)
    (rest : List Char) : NumberEnd (indentedItems depth items ++ rest) := by
  cases items with
  | nil =>
      rw [indentedItems_nil]
      exact numberEnd_lineBreak depth _
  | cons item items =>
      rw [indentedItems_cons]
      exact numberEnd_comma _

section items

variable {fuel : Nat} {s tail rest rest' : List Char} {item : Json}

/-- Behind the last item stands the closing bracket. -/
theorem items_last (h : value fuel s = .ok (item, tail))
    (htail : skipSpace tail = ']' :: rest) :
    Json.items (fuel + 1) s = .ok ([item], rest) := by
  unfold Json.items
  rw [h]
  simp only [bind, Except.bind]
  rw [htail]
  rfl

/-- Behind any other item stand a comma and more items. -/
theorem items_more {more : List Json} (h : value fuel s = .ok (item, tail))
    (htail : skipSpace tail = ',' :: rest)
    (hmore : Json.items fuel (skipSpace rest) = .ok (more, rest')) :
    Json.items (fuel + 1) s = .ok (item :: more, rest') := by
  unfold Json.items
  rw [h]
  simp only [bind, Except.bind]
  rw [htail]
  simp only
  rw [hmore]
  rfl

end items

/-- The items of an array are read back up to its closing bracket. -/
theorem items_indentedItems {depth : Nat} {rest : List Char}
    {items : List Json} {item : Json} {fuel : Nat}
    (h : ∀ j ∈ item :: items, j.Readable ∧ j.ReadsBack)
    (hfuel : (indentedAt (depth + 2) item).length
      + (indentedItems depth items).length ≤ fuel) :
    Json.items fuel
        (indentedAt (depth + 2) item ++ (indentedItems depth items ++ rest))
      = .ok (item :: items, rest) := by
  induction items generalizing item fuel with
  | nil =>
      have hlength : 0 < (indentedItems depth []).length := by
        rw [indentedItems]
        simp
      have hback := (h item (List.mem_cons_self ..)).2
      obtain ⟨fuel, rfl⟩ : ∃ n, fuel = n + 1 := ⟨fuel - 1, by omega⟩
      have hvalue := hback (depth + 2) fuel _
        (by omega) (numberEnd_indentedItems depth [] rest)
      apply items_last hvalue
      rw [indentedItems_nil, skipSpace_lineBreak, skipSpace_cons (by decide)]
  | cons next items ih =>
      have hlength : (indentedItems depth (next :: items)).length
          = 1 + (lineBreak (depth + 2)).length
            + ((indentedAt (depth + 2) next).length
              + (indentedItems depth items).length) := by
        rw [indentedItems]
        simp only [List.length_append, List.length_cons]
        omega
      have hback := (h item (List.mem_cons_self ..)).2
      obtain ⟨fuel, rfl⟩ : ∃ n, fuel = n + 1 := ⟨fuel - 1, by omega⟩
      have hvalue := hback (depth + 2) fuel _
        (by omega) (numberEnd_indentedItems depth (next :: items) rest)
      have hnext : next.Readable := (h next (by simp)).1
      have hmore : Json.items fuel (indentedAt (depth + 2) next
          ++ (indentedItems depth items ++ rest)) = .ok (next :: items, rest) :=
        ih (fun j hj => h j (List.mem_cons_of_mem _ hj)) (by omega)
      rw [indentedItems_cons] at hvalue ⊢
      refine items_more hvalue (skipSpace_cons (by decide) _) ?_
      rw [skipSpace_lineBreak, hnext.skipSpace, hmore]

-- ================================================================ objects

/-- A field at the start of a text, with what follows it. -/
def fieldText (depth : Nat) (e : String × Json) (rest : List Char) :
    List Char :=
  '"' :: (e.1.toList.flatMap stringChar
    ++ '"' :: ':' :: ' ' :: (indentedAt (depth + 2) e.2 ++ rest))

/-- Behind the last field stands the closing brace, on its own line. -/
theorem indentedFields_nil (depth : Nat) (rest : List Char) :
    indentedFields depth [] ++ rest = lineBreak depth ++ '\x7d' :: rest := by
  rw [indentedFields, List.append_assoc]
  rfl

/-- Each further field stands behind a comma, on its own line. -/
theorem indentedFields_cons (depth : Nat) (e : String × Json)
    (fields : List (String × Json)) (rest : List Char) :
    indentedFields depth (e :: fields) ++ rest
      = ',' :: (lineBreak (depth + 2)
          ++ fieldText depth e (indentedFields depth fields ++ rest)) := by
  rw [indentedFields]
  unfold fieldText stringText
  simp only [List.cons_append, List.append_assoc, List.nil_append]

/-- A number ends where fields follow or the object does. -/
theorem numberEnd_indentedFields (depth : Nat) (fields : List (String × Json))
    (rest : List Char) : NumberEnd (indentedFields depth fields ++ rest) := by
  cases fields with
  | nil =>
      rw [indentedFields_nil]
      exact numberEnd_lineBreak depth _
  | cons e fields =>
      rw [indentedFields_cons]
      exact numberEnd_comma _

section fields

variable {depth fuel : Nat} {e : String × Json} {tail rest rest' : List Char}

/-- Behind the last field stands the closing brace. -/
theorem fields_last (he : e.2.Readable)
    (h : value fuel (indentedAt (depth + 2) e.2 ++ tail) = .ok (e.2, tail))
    (htail : skipSpace tail = '\x7d' :: rest) :
    Json.fields (fuel + 1) (fieldText depth e tail) = .ok ([e], rest) := by
  have hblank : skipSpace (' ' :: (indentedAt (depth + 2) e.2 ++ tail))
      = indentedAt (depth + 2) e.2 ++ tail :=
    he.skipSpace (depth + 2) tail
  unfold fieldText Json.fields
  simp only [bind, Except.bind]
  rw [stringBody_stringText]
  simp only
  rw [skipSpace_cons (by decide)]
  simp only
  rw [hblank, h]
  simp only
  rw [htail]
  rfl

/-- Behind any other field stand a comma and more fields. -/
theorem fields_more {more : List (String × Json)} (he : e.2.Readable)
    (h : value fuel (indentedAt (depth + 2) e.2 ++ tail) = .ok (e.2, tail))
    (htail : skipSpace tail = ',' :: rest)
    (hmore : Json.fields fuel (skipSpace rest) = .ok (more, rest')) :
    Json.fields (fuel + 1) (fieldText depth e tail)
      = .ok (e :: more, rest') := by
  have hblank : skipSpace (' ' :: (indentedAt (depth + 2) e.2 ++ tail))
      = indentedAt (depth + 2) e.2 ++ tail :=
    he.skipSpace (depth + 2) tail
  unfold fieldText Json.fields
  simp only [bind, Except.bind]
  rw [stringBody_stringText]
  simp only
  rw [skipSpace_cons (by decide)]
  simp only
  rw [hblank, h]
  simp only
  rw [htail]
  simp only
  rw [hmore]
  rfl

end fields

/-- A field is longer than its value, which bounds the fuel. -/
theorem length_fieldText (depth : Nat) (e : String × Json) (rest : List Char) :
    (indentedAt (depth + 2) e.2).length + rest.length + 2
      ≤ (fieldText depth e rest).length := by
  unfold fieldText
  simp only [List.length_append, List.length_cons]
  omega

/-- No white space stands in front of a field. -/
theorem skipSpace_fieldText (depth : Nat) (e : String × Json)
    (rest : List Char) :
    skipSpace (fieldText depth e rest) = fieldText depth e rest :=
  skipSpace_cons (by decide) _

/-- The fields of an object are read back up to its closing brace. -/
theorem fields_indentedFields {depth : Nat} {rest : List Char}
    {fields : List (String × Json)} {e : String × Json} {fuel : Nat}
    (h : ∀ e' ∈ e :: fields, e'.2.Readable ∧ e'.2.ReadsBack)
    (hfuel : (fieldText depth e (indentedFields depth fields)).length ≤ fuel) :
    Json.fields fuel (fieldText depth e (indentedFields depth fields ++ rest))
      = .ok (e :: fields, rest) := by
  induction fields generalizing e fuel with
  | nil =>
      have hlength := length_fieldText depth e (indentedFields depth [])
      obtain ⟨fuel, rfl⟩ : ∃ n, fuel = n + 1 := ⟨fuel - 1, by omega⟩
      obtain ⟨hreadable, hback⟩ := h e (List.mem_cons_self ..)
      have hvalue := hback (depth + 2) fuel _ (by omega)
        (numberEnd_indentedFields depth [] rest)
      apply fields_last hreadable hvalue
      rw [indentedFields_nil, skipSpace_lineBreak, skipSpace_cons (by decide)]
  | cons next fields ih =>
      have hlength := length_fieldText depth e
        (indentedFields depth (next :: fields))
      have hnext : (indentedFields depth (next :: fields)).length
          = 1 + (lineBreak (depth + 2)).length
            + (fieldText depth next (indentedFields depth fields)).length := by
        have hcons := indentedFields_cons depth next fields []
        rw [List.append_nil, List.append_nil] at hcons
        rw [hcons]
        simp only [List.length_append, List.length_cons]
        omega
      obtain ⟨fuel, rfl⟩ : ∃ n, fuel = n + 1 := ⟨fuel - 1, by omega⟩
      obtain ⟨hreadable, hback⟩ := h e (List.mem_cons_self ..)
      have hvalue := hback (depth + 2) fuel _ (by omega)
        (numberEnd_indentedFields depth (next :: fields) rest)
      have hmore : Json.fields fuel
          (fieldText depth next (indentedFields depth fields ++ rest))
            = .ok (next :: fields, rest) :=
        ih (fun e' he' => h e' (List.mem_cons_of_mem _ he')) (by omega)
      rw [indentedFields_cons] at hvalue ⊢
      refine fields_more hreadable hvalue (skipSpace_cons (by decide) _) ?_
      rw [skipSpace_lineBreak, skipSpace_fieldText, hmore]

-- ================================================================= values

/-- What starts with none of the three signs is a scalar. -/
theorem value_of_scalar {fuel : Nat} {c : Char} {s : List Char}
    (hc : c ≠ '"' ∧ c ≠ '[' ∧ c ≠ '\x7b') :
    value (fuel + 1) (c :: s) = scalar (c :: s) := by
  unfold value
  simp only
  split
  next heq =>
    injection heq with heq
    exact absurd heq hc.1
  next heq =>
    injection heq with heq
    exact absurd heq hc.2.1
  next heq =>
    injection heq with heq
    exact absurd heq hc.2.2
  next => rfl

/-- A number within the limit of digits is read back. -/
theorem readsBack_int {n : Int} (h : n.natAbs < 10 ^ digitLimit) :
    (Json.int n).ReadsBack := by
  intro depth fuel rest hfuel hrest
  obtain ⟨fuel, rfl⟩ := (Readable.int h).exists_succ hfuel
  show value (fuel + 1) (intText n ++ rest) = _
  have hscalar := scalar_intText h hrest
  obtain ⟨c, s, hcs, hc⟩ : ∃ c s, intText n = c :: s
      ∧ c ≠ '"' ∧ c ≠ '[' ∧ c ≠ '\x7b' := by
    obtain ⟨c, s, hcs, hdigit, -⟩ := exists_decimal_cons n.natAbs
    unfold intText
    split
    · exact ⟨_, _, rfl, by decide, by decide, by decide⟩
    · refine ⟨c, s, hcs, ?_, ?_, ?_⟩ <;> (rintro rfl; cases hdigit)
  rw [hcs] at hscalar ⊢
  exact (value_of_scalar hc).trans hscalar

/-- A text is read back. -/
theorem readsBack_str (s : String) : (Json.str s).ReadsBack := by
  intro depth fuel rest hfuel hrest
  obtain ⟨fuel, rfl⟩ := (Readable.str s).exists_succ hfuel
  have htext : indentedAt depth (.str s) ++ rest
      = '"' :: (s.toList.flatMap stringChar ++ '"' :: rest) := by
    rw [indentedAt]
    unfold stringText
    simp only [List.cons_append, List.append_assoc, List.nil_append]
  rw [htext, value]
  simp only [bind, Except.bind]
  rw [stringBody_stringText]
  rfl

/-- An array is read back when its items are. -/
theorem readsBack_arr {items : List Json}
    (h : ∀ j ∈ items, j.Readable ∧ j.ReadsBack) :
    (Json.arr items).ReadsBack := by
  intro depth fuel rest hfuel hrest
  obtain ⟨fuel, rfl⟩ := (Readable.arr fun j hj => (h j hj).1).exists_succ hfuel
  cases items with
  | nil => rfl
  | cons item items =>
      have htext : indentedAt depth (.arr (item :: items)) ++ rest
          = '[' :: (lineBreak (depth + 2) ++ (indentedAt (depth + 2) item
              ++ (indentedItems depth items ++ rest))) := by
        rw [indentedAt]
        simp only [List.cons_append, List.append_assoc]
      have hlength : (indentedAt depth (.arr (item :: items))).length
          = 1 + (lineBreak (depth + 2)).length
            + ((indentedAt (depth + 2) item).length
              + (indentedItems depth items).length) := by
        rw [indentedAt]
        simp only [List.length_append, List.length_cons]
        omega
      have hitems : Json.items fuel (indentedAt (depth + 2) item
          ++ (indentedItems depth items ++ rest)) = .ok (item :: items, rest) :=
        items_indentedItems h (by omega)
      obtain ⟨c, s, hc, hspace, hclose⟩ :=
        (h item (List.mem_cons_self ..)).1.exists_cons (depth + 2)
      rw [htext, value, skipSpace_lineBreak]
      rw [hc] at hitems ⊢
      rw [List.cons_append, skipSpace_cons hspace]
      split
      next heq =>
        injection heq with heq
        exact absurd heq hclose
      next =>
        rw [List.cons_append] at hitems
        rw [hitems]
        rfl

/-- An object with distinct keys is read back when its values are. -/
theorem readsBack_obj {fields : List (String × Json)}
    (hkeys : (fields.map Prod.fst).Nodup)
    (h : ∀ e ∈ fields, e.2.Readable ∧ e.2.ReadsBack) :
    (Json.obj fields).ReadsBack := by
  intro depth fuel rest hfuel hrest
  obtain ⟨fuel, rfl⟩ :=
    (Readable.obj hkeys fun e he => (h e he).1).exists_succ hfuel
  cases fields with
  | nil => rfl
  | cons e fields =>
      have htext : ∀ rest, indentedAt depth (.obj (e :: fields)) ++ rest
          = '\x7b' :: (lineBreak (depth + 2)
            ++ fieldText depth e (indentedFields depth fields ++ rest)) := by
        intro rest
        rw [indentedAt]
        unfold fieldText stringText
        simp only [List.cons_append, List.append_assoc, List.nil_append]
      have hlength : (indentedAt depth (.obj (e :: fields))).length
          = 1 + (lineBreak (depth + 2)).length
            + (fieldText depth e (indentedFields depth fields)).length := by
        have hnil := htext []
        rw [List.append_nil, List.append_nil] at hnil
        rw [hnil]
        simp only [List.length_append, List.length_cons]
        omega
      have hfields : Json.fields fuel
          (fieldText depth e (indentedFields depth fields ++ rest))
            = .ok (e :: fields, rest) :=
        fields_indentedFields h (by omega)
      rw [htext, value, skipSpace_lineBreak, skipSpace_fieldText]
      split
      next heq => cases heq
      next =>
        rw [hfields]
        show Except.ok (Json.obj (OrderedMap.ofList (e :: fields)).entries,
          rest) = _
        rw [OrderedMap.entries_ofList_of_nodup hkeys]

/-- Every readable value is read back, at any depth and with what follows
left as it is. -/
theorem Readable.readsBack {j : Json} (h : j.Readable) : j.ReadsBack := by
  induction h with
  | null =>
      intro depth fuel rest hfuel hrest
      obtain ⟨fuel, rfl⟩ := Readable.null.exists_succ hfuel
      rfl
  | bool b =>
      intro depth fuel rest hfuel hrest
      obtain ⟨fuel, rfl⟩ := (Readable.bool b).exists_succ hfuel
      cases b <;> rfl
  | int h => exact readsBack_int h
  | str s => exact readsBack_str s
  | arr h ih => exact readsBack_arr fun j hj => ⟨h j hj, ih j hj⟩
  | obj hkeys h ih => exact readsBack_obj hkeys fun e he => ⟨h e he, ih e he⟩

/-- Reading undoes writing: the indented text of a readable value, code
point for code point, is read as that value, with the keys of every object
in their order. -/
theorem read_indented {j : Json} (h : j.Readable) :
    read j.indented.toList = .ok j := by
  have hvalue := h.readsBack 0 (2 * (indentedAt 0 j).length + 2) []
    (by omega) (fun c hc => by cases hc)
  rw [List.append_nil] at hvalue
  unfold indented read
  rw [String.toList_ofList]
  have hskip := h.skipSpace 0 []
  rw [List.append_nil] at hskip
  rw [hskip, hvalue]
  rfl

end Json

end ApiScaffold
