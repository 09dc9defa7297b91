/-
Schemas as they are written. What a property means is a `Fragment`, what a class
or interface means a `Draft`, and a document holds neither but their JSON. Here
stands which JSON that is, key by key: `Fragment.WrittenAs` has one rule for
each form of a property schema, and `objectSchema` lists the fields of an object
schema, of which only the first is always there.

The rest are ways to look into what is written: the own object schema inside a
component, a property of a schema, and whether the schema requires a name. Each
comes with the law that says what is found in the JSON of a draft.
-/
import ApiScaffold.Proofs.Data.OrderedMap
import ApiScaffold.Schema.Component

namespace ApiScaffold

-- =================================================== statement vocabulary

/-- How a property schema is written: a plain type with its format, a reference
alone, an array with its items and with the bounds that it has. -/
inductive Fragment.WrittenAs : Fragment → Json → Prop
  | plain (type : String) : WrittenAs (.plain type none) (.obj [("type", .str type)])
  | formatted (type format : String) :
      WrittenAs (.plain type (some format))
        (.obj [("type", .str type), ("format", .str format)])
  | ref (pointer : String) : WrittenAs (.ref pointer) (.obj [("$ref", .str pointer)])
  | array {items : Fragment} {j : Json} (h : WrittenAs items j)
      (low high : Option Int) :
      WrittenAs (.array items low high)
        (.obj (("type", .str "array") :: ("items", j)
          :: ((low.map fun n => ("minItems", .int n)).toList
            ++ (high.map fun n => ("maxItems", .int n)).toList)))
  | given (value : Json) : WrittenAs (.given value) value

/-- An object schema with given properties, required names and lines of its
description. What is empty is left out. -/
def objectSchema (properties : List (String × Json)) (required notes : List String) :
    Json :=
  .obj (("type", .str "object")
    :: ((if properties.isEmpty then [] else [("properties", .obj properties)])
      ++ (if required.isEmpty then [] else [("required", .arr (required.map .str))])
      ++ if notes.isEmpty then []
        else [("description", .str ("\n".intercalate notes))]))

/-- The own object schema of a component: the whole of it, or what stands
beside its parents. -/
def Component.own? : Component → Option Draft
  | .enumeration _ => none
  | .object own => some own
  | .inheriting _ own => some own

/-- The own object schema inside the JSON form of a component: the last
item under `allOf`, or all of it. -/
def Json.ownSchema? (j : Json) : Option Json :=
  match j.field? "allOf" with
  | some (.arr items) => items.getLast?
  | _ => some j

/-- The schema of a property of an object schema. -/
def Json.property? (schema : Json) (name : String) : Option Json :=
  (schema.field? "properties").bind fun properties => properties.field? name

/-- An object schema requires a name. -/
def Json.Requires (schema : Json) (name : String) : Prop :=
  ∃ names, schema.field? "required" = some (.arr names) ∧ .str name ∈ names

-- =========================================================== properties

/-- Every property schema is written by the rule of its form. -/
theorem Fragment.writtenAs_toJson (f : Fragment) : f.WrittenAs f.toJson := by
  induction f with
  | plain type format =>
      cases format with
      | none => exact .plain type
      | some format => exact .formatted type format
  | ref pointer => exact .ref pointer
  | array items low high ih => cases low <;> cases high <;> exact .array ih _ _
  | given value => exact .given value

/-- No property schema is written in two ways. -/
theorem Fragment.WrittenAs.eq_toJson {f : Fragment} {j : Json} (h : f.WrittenAs j) :
    j = f.toJson := by
  induction h with
  | plain => rfl
  | formatted => rfl
  | ref => rfl
  | array h low high ih => subst ih; cases low <;> cases high <;> rfl
  | given => rfl

/-- Properties that are written one by one are written as the JSON of their
schemas. -/
theorem Fragment.eq_map_of_writtenAs {es : List (String × Fragment)}
    {properties : List (String × Json)}
    (h : List.Forall₂ (fun e written => written.1 = e.1 ∧ e.2.WrittenAs written.2)
      es properties) :
    properties = es.map fun e => (e.1, e.2.toJson) := by
  induction h with
  | nil => rfl
  | cons hone _ ih =>
      rw [List.map_cons, ← ih, ← hone.1, ← hone.2.eq_toJson]

-- =============================================================== drafts

namespace Draft

/-- An object schema has no field but its own four. -/
theorem field?_toJson {own : Draft} {key : String}
    (hkey : key ∉ ["type", "properties", "required", "description"]) :
    own.toJson.field? key = none := by
  simp only [List.mem_cons, List.not_mem_nil, or_false, not_or] at hkey
  obtain ⟨htype, hproperties, hrequired, hdescription⟩ := hkey
  unfold toJson fields Json.field?
  simp only
  rw [List.lookup_eq_none_iff]
  grind

/-- A field that may be left out is found under its own key. -/
theorem lookup_optional (key k : String) (absent : Bool) (v : Json) :
    (if absent then [] else [(k, v)]).lookup key
      = if key = k ∧ absent = false then some v else none := by
  cases absent with
  | true => simp
  | false => simp [lookup_cons_eq]

/-- The fields of an object schema, up to its description. -/
theorem exists_fields_eq (own : Draft) :
    ∃ rest, own.fields
        = [("type", .str "object")]
          ++ (if own.properties.entries.isEmpty then []
            else [("properties",
              .obj (own.properties.mapValues Fragment.toJson).entries)])
          ++ (if own.required.isEmpty then []
            else [("required", Json.strings own.required)])
          ++ rest
      ∧ ∀ key, key ≠ "description" → rest.lookup key = none := by
  have hempty : (own.properties.mapValues Fragment.toJson).entries.isEmpty
      = own.properties.entries.isEmpty := List.isEmpty_map
  unfold fields
  simp only
  rw [hempty]
  refine ⟨_, rfl, fun key hkey => ?_⟩
  split
  · rw [lookup_optional, if_neg fun h => hkey h.1]
  · rfl

/-- The names required by an object schema, if there are any. -/
theorem field?_required (own : Draft) :
    own.toJson.field? "required"
      = if own.required.isEmpty then none
        else some (Json.strings own.required) := by
  obtain ⟨rest, hfields, hrest⟩ := own.exists_fields_eq
  show own.fields.lookup "required" = _
  rw [hfields]
  simp only [List.lookup_append, lookup_optional, hrest "required" (by decide)]
  cases own.required.isEmpty <;> rfl

/-- The properties of an object schema, if there are any. -/
theorem field?_properties (own : Draft) :
    own.toJson.field? "properties"
      = if own.properties.entries.isEmpty then none
        else some (.obj (own.properties.mapValues Fragment.toJson).entries) := by
  obtain ⟨rest, hfields, hrest⟩ := own.exists_fields_eq
  show own.fields.lookup "properties" = _
  rw [hfields]
  simp only [List.lookup_append, lookup_optional, hrest "properties" (by decide)]
  cases own.properties.entries.isEmpty <;> rfl

/-- A property of an object schema is that of the draft. -/
theorem property?_toJson (own : Draft) (name : String) :
    own.toJson.property? name = (own.properties.get? name).map Fragment.toJson := by
  unfold Json.property?
  rw [field?_properties]
  split
  next hnone =>
    have hnil : own.properties.entries = [] := List.isEmpty_iff.mp hnone
    unfold OrderedMap.get?
    rw [hnil]
    rfl
  next =>
    show (own.properties.mapValues Fragment.toJson).entries.lookup name = _
    exact lookup_map_entry (fun _ => Fragment.toJson) name _

/-- An object schema requires the names that the draft requires. -/
theorem requires_toJson {own : Draft} {name : String} :
    own.toJson.Requires name ↔ name ∈ own.required := by
  unfold Json.Requires
  rw [field?_required]
  constructor
  · rintro ⟨names, hnames, hmem⟩
    split at hnames
    next => cases hnames
    next =>
      injection hnames with hnames
      injection hnames with hnames
      rw [← hnames, List.mem_map] at hmem
      obtain ⟨other, hother, heq⟩ := hmem
      injection heq with heq
      exact heq ▸ hother
  · intro hmem
    have hne : own.required.isEmpty = false :=
      List.isEmpty_eq_false_iff.mpr (List.ne_nil_of_mem hmem)
    rw [hne]
    exact ⟨_, rfl, List.mem_map_of_mem hmem⟩

/-- A draft is written as the object schema of its properties, its required names
and the lines of its description. -/
theorem toJson_eq {own : Draft} {notes : List String}
    (h : own.description = if notes.isEmpty then none else some ("\n".intercalate notes))
    (hne : notes ≠ [] → "\n".intercalate notes ≠ "") :
    own.toJson
      = objectSchema (own.properties.mapValues Fragment.toJson).entries own.required
          notes := by
  unfold toJson fields objectSchema Json.strings
  simp only
  rw [h]
  cases notes with
  | nil => simp
  | cons line lines =>
      have hsome : ("\n".intercalate (line :: lines)).isEmpty = false :=
        Bool.eq_false_iff.mpr fun hempty =>
          hne (List.cons_ne_nil _ _) (String.isEmpty_iff.mp hempty)
      simp [hsome]

end Draft

-- =========================================================== components

/-- The own object schema of a component is found in its JSON. -/
theorem Component.ownSchema?_toJson {c : Component} {own : Draft}
    (h : c.own? = some own) : c.toJson.ownSchema? = some own.toJson := by
  cases c with
  | enumeration values => cases h
  | object own' =>
      injection h with h
      subst h
      unfold Json.ownSchema? Component.toJson
      rw [Draft.field?_toJson (by decide)]
  | inheriting parents own' =>
      injection h with h
      subst h
      exact List.getLast?_concat

end ApiScaffold
