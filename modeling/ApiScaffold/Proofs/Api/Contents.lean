/-
What documents are made of. A document holds texts, truth values and the bounds
of lists, under objects and arrays, and of each value in it three things are
known (`Json.Formed`): how many levels of objects and arrays it has at most, that
the keys of every object are distinct and admitted, and that its integers come
from counts within the limit. Whoever reads a document back asks for some of
these, a reader of JSON for the integers and the keys, one of YAML for the levels
and for keys that it can tell from other text.

Which keys are admitted is a parameter. The words that stand in every document
alike are assumed to be (`documentWords`), and names, properties and paths are
asked for where a diagram brings them in (`Diagram.AdmitsKeys`). Each form of a
value has one lemma, from the schema of a property up to the document, and the
number in it is the number of levels that the form may have.
-/
import ApiScaffold.Proofs.Api.ComponentNames
import ApiScaffold.Proofs.Api.Identifiers
import ApiScaffold.Proofs.Diagram.CountLimit

namespace ApiScaffold

-- =============================================================== values

/-- A value with at most some levels of objects and arrays, in which keys are
distinct and admitted and integers within the limit. -/
inductive Json.Formed (Admits : String → Prop) : Nat → Json → Prop
  | bool (levels : Nat) (b : Bool) : Formed Admits levels (.bool b)
  | int (levels : Nat) {n : Int} (h : WithinLimit n) : Formed Admits levels (.int n)
  | str (levels : Nat) (s : String) : Formed Admits levels (.str s)
  | arr {levels : Nat} {items : List Json} (h : ∀ j ∈ items, Formed Admits levels j) :
      Formed Admits (levels + 1) (.arr items)
  | obj {levels : Nat} {fields : List (String × Json)}
      (hdistinct : (fields.map Prod.fst).Nodup) (hkeys : ∀ e ∈ fields, Admits e.1)
      (h : ∀ e ∈ fields, Formed Admits levels e.2) : Formed Admits (levels + 1) (.obj fields)

/-- The words that are keys in documents whatever the diagram. -/
def documentWords : List String :=
  ["openapi", "info", "title", "version", "description", "paths", "summary",
    "get", "post", "put", "delete", "operationId", "tags", "parameters", "name",
    "in", "required", "schema", "requestBody", "responses", "200", "201", "204",
    "400", "404", "content", "application/json", "components", "schemas", "allOf",
    "type", "enum", "properties", "format", "$ref", "items", "minItems", "maxItems",
    "message", "code"]

/-- The keys that a diagram brings into its document are admitted. -/
structure Diagram.AdmitsKeys (d : Diagram) (Admits : String → Prop) : Prop where
  declared : ∀ name ∈ d.declaredNames, Admits name
  attributes : ∀ e ∈ d.entities, ∀ a ∈ e.attributes, Admits a.name
  properties : ∀ name ∈ d.declaredNames, Admits (propertyName name)
  paths : ∀ c ∈ d.classes,
    ∀ e ∈ crudPaths c.name (pathSegment c.name) (componentRef errorName), Admits e.1

variable {Admits : String → Prop} {levels : Nat}

open Json (Formed)

/-- A value may have fewer levels than it is allowed. -/
theorem Json.Formed.mono {more : Nat} {j : Json} (h : Formed Admits levels j)
    (hle : levels ≤ more) : Formed Admits more j := by
  induction h generalizing more with
  | bool levels b => exact .bool more b
  | int levels h => exact .int more h
  | str levels s => exact .str more s
  | arr _ ih =>
      obtain ⟨more, rfl⟩ : ∃ n, more = n + 1 := ⟨more - 1, by omega⟩
      exact .arr fun j hj => ih j hj (Nat.le_of_succ_le_succ hle)
  | obj hdistinct hkeys _ ih =>
      obtain ⟨more, rfl⟩ : ∃ n, more = n + 1 := ⟨more - 1, by omega⟩
      exact .obj hdistinct hkeys fun e he => ih e he (Nat.le_of_succ_le_succ hle)

/-- Texts in a row. -/
theorem strings_formed (xs : List String) : Formed Admits (levels + 1) (Json.strings xs) := by
  refine .arr fun j hj => ?_
  obtain ⟨s, -, rfl⟩ := List.mem_map.mp hj
  exact .str levels s

/-- A map whose keys are admitted. -/
theorem mapValues_formed {α : Type} {f : α → Json} {m : OrderedMap α}
    (h : ∀ e ∈ m.entries, Admits e.1 ∧ Formed Admits levels (f e.2)) :
    Formed Admits (levels + 1) (.obj (m.mapValues f).entries) := by
  have hentries : ∀ e ∈ (m.mapValues f).entries,
      Admits e.1 ∧ Formed Admits levels e.2 := by
    intro e he
    obtain ⟨e', he', rfl⟩ := List.mem_map.mp he
    exact h e' he'
  exact .obj (m.mapValues f).distinct (fun e he => (hentries e he).1)
    fun e he => (hentries e he).2

section fields

variable {key : String} {value : Option Json}

/-- A field that may be left out has its own key. -/
theorem keys_optionalField :
    ((Fragment.optionalField key value).map Prod.fst).Sublist [key] := by
  cases value with
  | none => exact List.nil_sublist _
  | some j => exact List.Sublist.refl _

/-- A field that may be left out is formed when its value is, where it stands. -/
theorem optionalField_formed (h : ∀ j ∈ value, Formed Admits levels j) :
    ∀ e ∈ Fragment.optionalField key value, Formed Admits levels e.2 := by
  cases value with
  | none => exact List.forall_mem_nil _
  | some j => exact List.forall_mem_singleton.mpr (h j rfl)

end fields

section document

variable (hwords : ∀ key ∈ documentWords, Admits key)

include hwords

/-- An object whose keys are some of given words. -/
theorem words_formed {fields : List (String × Json)} (keys : List String)
    (hsub : (fields.map Prod.fst).Sublist keys)
    (h : ∀ e ∈ fields, Formed Admits levels e.2)
    (hkeys : keys.Nodup ∧ keys ⊆ documentWords := by decide) :
    Formed Admits (levels + 1) (.obj fields) :=
  .obj (hsub.nodup hkeys.1)
    (fun _ he => hwords _ (hkeys.2 (hsub.subset (List.mem_map_of_mem he)))) h

-- =========================================================== properties

namespace Fragment

/-- A plain type, with its format. -/
theorem plain_formed (type : String) (format : Option String) :
    Formed Admits 1 (plain type format).toJson := by
  refine words_formed hwords ["type", "format"] (keys_optionalField.cons_cons _) ?_
  refine List.forall_mem_cons.mpr ⟨.str 0 type, optionalField_formed ?_⟩
  intro j hj
  obtain ⟨s, -, rfl⟩ := Option.map_eq_some_iff.mp hj
  exact .str 0 s

/-- A reference. -/
theorem ref_formed (pointer : String) : Formed Admits 1 (ref pointer).toJson :=
  words_formed hwords ["$ref"] (List.Sublist.refl _)
    (List.forall_mem_singleton.mpr (.str 0 pointer))

/-- An array of items without levels below their own, and its bounds. -/
theorem array_formed {items : Fragment} {minItems maxItems : Option Int}
    (hitems : Formed Admits 1 items.toJson) (hmin : ∀ n ∈ minItems, WithinLimit n)
    (hmax : ∀ n ∈ maxItems, WithinLimit n) :
    Formed Admits 2 (array items minItems maxItems).toJson := by
  have hbound : ∀ {bound : Option Int}, (∀ n ∈ bound, WithinLimit n) →
      ∀ j ∈ bound.map Json.int, Formed Admits 1 j := by
    intro bound h j hj
    obtain ⟨n, hn, rfl⟩ := Option.map_eq_some_iff.mp hj
    exact .int 1 (h n hn)
  refine words_formed hwords (["type", "items"] ++ ["minItems"] ++ ["maxItems"]) ?_ ?_
  · rw [List.map_append, List.map_append]
    exact ((List.Sublist.refl _).append keys_optionalField).append
      keys_optionalField
  · simp only [List.forall_mem_append, List.forall_mem_cons]
    exact ⟨⟨⟨.str 1 "array", hitems, List.forall_mem_nil _⟩,
      optionalField_formed (hbound hmin)⟩, optionalField_formed (hbound hmax)⟩

end Fragment

/-- The schemas of the table of primitive types. -/
theorem primitive?_formed {token : String} {f : Fragment}
    (h : primitive? token = some f) : Formed Admits 1 f.toJson := by
  have htable : ∀ e ∈ primitiveTypes, Formed Admits 1 e.2.toJson := by
    simp [primitiveTypes, Fragment.plain_formed hwords]
  exact htable (lowerText token, f) (mem_of_lookup h)

/-- What a name means. -/
theorem resolveName_formed (names : List String) (token : String) :
    Formed Admits 1 (resolveName names token).toJson := by
  unfold resolveName
  split
  next hf => exact primitive?_formed hwords hf
  next =>
    split
    · exact Fragment.ref_formed hwords _
    · exact Fragment.plain_formed hwords _ _

/-- What the type of an attribute means. -/
theorem fragmentOfType_formed (names : List String) (type : Option String) :
    Formed Admits 2 (fragmentOfType names type).toJson := by
  have htext : Formed Admits 2 Fragment.text.toJson :=
    (Fragment.plain_formed hwords _ _).mono (Nat.le_succ 1)
  unfold fragmentOfType
  split
  next => exact htext
  next raw =>
    split
    next => exact htext
    next =>
      dsimp only
      split
      next hf => exact (primitive?_formed hwords hf).mono (Nat.le_succ 1)
      next =>
        split
        next => exact (Fragment.ref_formed hwords _).mono (Nat.le_succ 1)
        next =>
          split
          next =>
            exact Fragment.array_formed hwords (resolveName_formed hwords _ _)
              withinLimit_none withinLimit_none
          next => exact htext

/-- The property of a relation whose counts are within the limit. -/
theorem relationSchema_formed {r : Relation} (h : r.Limited) :
    Formed Admits 2 (relationSchema r).toJson := by
  obtain ⟨hmin, hmax⟩ := Decision.limited_ofCardinality? h.target
  unfold relationSchema
  simp only
  split
  · exact Fragment.array_formed hwords (Fragment.ref_formed hwords _) hmin hmax
  · exact (Fragment.ref_formed hwords _).mono (Nat.le_succ 1)

-- =========================================================== components

/-- The object schema of a draft. -/
theorem Draft.toJson_formed {own : Draft} (h : ∀ e ∈ own.properties.entries,
    Admits e.1 ∧ Formed Admits 2 e.2.toJson) : Formed Admits 4 own.toJson := by
  have hproperties := mapValues_formed (f := Fragment.toJson) h
  have hrequired : Formed Admits 3 (Json.strings own.required) := strings_formed _
  unfold Draft.toJson Draft.fields
  refine words_formed hwords
    (["type"] ++ ["properties"] ++ ["required"] ++ ["description"]) ?_ ?_
  · simp only [List.map_append]
    refine (((List.Sublist.refl _).append ?_).append ?_).append ?_
    · split <;> simp
    · split <;> simp
    · split
      · split <;> simp
      · simp
  · simp only [List.forall_mem_append]
    refine ⟨⟨⟨?_, ?_⟩, ?_⟩, ?_⟩
    · exact List.forall_mem_singleton.mpr (.str 3 "object")
    · split
      · exact List.forall_mem_nil _
      · exact List.forall_mem_singleton.mpr hproperties
    · split
      · exact List.forall_mem_nil _
      · exact List.forall_mem_singleton.mpr hrequired
    · split
      · split
        · exact List.forall_mem_nil _
        · exact List.forall_mem_singleton.mpr (.str 3 _)
      · exact List.forall_mem_nil _

/-- A draft that took writes from the start. -/
theorem Draft.takeAll_formed {ws : List Write}
    (h : ∀ w ∈ ws, Admits w.name ∧ Formed Admits 2 w.schema.toJson)
    (lines : List String) : Formed Admits 4 ((takeAll {} ws).noteAll lines).toJson := by
  refine toJson_formed hwords fun e he => ?_
  rw [properties_noteAll, properties_takeAll] at he
  rcases OrderedMap.mem_entries_putAll he with he | he
  · obtain ⟨w, hw, rfl⟩ := List.mem_map.mp he
    exact h w hw
  · cases he

/-- The shared error schema. -/
theorem errorSchema_formed : Formed Admits 4 errorSchema.toJson := by
  refine Draft.toJson_formed hwords fun e he => ?_
  have htext := (Fragment.plain_formed hwords "string" none).mono (Nat.le_succ 1)
  rcases OrderedMap.mem_entries_putAll he with he | he
  · simp only [List.mem_cons, List.not_mem_nil, or_false] at he
    rcases he with rfl | rfl <;> exact ⟨hwords _ (by decide), htext⟩
  · cases he

namespace Component

/-- The values of an enumeration. -/
theorem enumeration_formed (values : List String) :
    Formed Admits 2 (enumeration values).toJson := by
  refine words_formed hwords ["type", "enum"] (List.Sublist.refl _) ?_
  simp only [List.forall_mem_cons]
  exact ⟨.str 1 "string", strings_formed values, List.forall_mem_nil _⟩

/-- References to the parents and an object schema beside them. -/
theorem inheriting_formed (parents : List String) {own : Draft}
    (h : Formed Admits 4 own.toJson) : Formed Admits 6 (inheriting parents own).toJson := by
  refine words_formed hwords ["allOf"] (List.Sublist.refl _)
    (List.forall_mem_singleton.mpr (.arr fun j hj => ?_))
  rcases List.mem_append.mp hj with hj | hj
  · obtain ⟨p, -, rfl⟩ := List.mem_map.mp hj
    exact (Fragment.ref_formed hwords _).mono (by decide)
  · rw [List.mem_singleton.mp hj]
    exact h

end Component

/-- Every write to a schema of a diagram. -/
theorem Diagram.AdmitsKeys.writesTo {d : Diagram} (h : d.AdmitsKeys Admits)
    (hlimits : ∀ r ∈ d.relations, r.Limited) (name : String) :
    ∀ w ∈ d.writesTo name, Admits w.name ∧ Formed Admits 2 w.schema.toJson := by
  intro w hw
  rcases List.mem_append.mp hw with hw | hw
  · obtain ⟨e, he, hw⟩ := List.mem_flatMap.mp hw
    obtain ⟨a, ha, rfl⟩ := List.mem_map.mp hw
    show Admits a.name ∧ Formed Admits 2 (fragmentOfType d.declaredNames a.type).toJson
    exact ⟨h.attributes e (List.mem_filter.mp he).1 a ha,
      fragmentOfType_formed hwords _ _⟩
  · obtain ⟨r, hr, rfl⟩ := List.mem_map.mp hw
    obtain ⟨hrelation, hstructural⟩ := List.mem_filter.mp hr
    simp only [Bool.and_eq_true, List.contains_iff_mem] at hstructural
    rw [← propertyName_eq, ← relationSchema_eq]
    show Admits (propertyName r.target) ∧ Formed Admits 2 (relationSchema r).toJson
    exact ⟨h.properties _ hstructural.2,
      relationSchema_formed hwords (hlimits r hrelation)⟩

/-- The component schemas of a diagram. -/
theorem Diagram.AdmitsKeys.componentSchemas {d : Diagram} (h : d.AdmitsKeys Admits)
    (hlimits : ∀ r ∈ d.relations, r.Limited) {name : String} {c : Component}
    (hc : d.componentSchemas.get? name = some c) : Formed Admits 6 c.toJson := by
  have hown := Draft.takeAll_formed hwords (h.writesTo hwords hlimits name)
    (d.notesOn name)
  by_cases hname : name ∈ d.entityNames
  · rw [Diagram.get?_componentSchemas_eq hname] at hc
    injection hc with hc
    subst hc
    split
    · exact hown.mono (by decide)
    · exact Component.inheriting_formed hwords _ hown
  · rw [Diagram.get?_componentSchemas_of_enum hname] at hc
    obtain ⟨e, -, rfl⟩ := Option.map_eq_some_iff.mp hc
    exact (Component.enumeration_formed hwords _).mono (by decide)

-- ================================================================ paths

/-- JSON content with a schema. -/
theorem schemaContent_formed {schema : Fragment} (h : Formed Admits 2 schema.toJson) :
    Formed Admits 4 (schemaContent schema) := by
  have hschema : Formed Admits 3 (.obj [("schema", schema.toJson)]) :=
    words_formed hwords ["schema"] (List.Sublist.refl _)
      (List.forall_mem_singleton.mpr h)
  exact words_formed hwords ["application/json"] (List.Sublist.refl _)
    (List.forall_mem_singleton.mpr hschema)

/-- A response, with its content if it has some. -/
theorem Response.entry_formed {r : Response}
    (h : ∀ f ∈ r.body, Formed Admits 2 f.toJson) : Formed Admits 5 r.entry.2 := by
  refine words_formed hwords ["description", "content"]
    (keys_optionalField.cons_cons _) ?_
  refine List.forall_mem_cons.mpr ⟨.str 4 _, optionalField_formed ?_⟩
  intro j hj
  obtain ⟨f, hf, rfl⟩ := Option.map_eq_some_iff.mp hj
  exact schemaContent_formed hwords (h f hf)

/-- The parameter that identifies an item. -/
theorem itemParameter_formed (tag : String) : Formed Admits 2 (itemParameter tag) := by
  refine words_formed hwords ["name", "in", "required", "schema", "description"]
    (List.Sublist.refl _) ?_
  simp only [List.forall_mem_cons]
  exact ⟨.str 1 _, .str 1 _, .bool 1 _, Fragment.plain_formed hwords _ _, .str 1 _,
    List.forall_mem_nil _⟩

/-- An operation whose bodies are formed, with distinct and admitted statuses. -/
structure Operation.Formed (Admits : String → Prop) (o : Operation) : Prop where
  distinct : (o.responses.map Response.status).Nodup
  statuses : ∀ r ∈ o.responses, Admits r.status
  request : ∀ f ∈ o.requestBody, Json.Formed Admits 2 f.toJson
  responses : ∀ r ∈ o.responses, ∀ f ∈ r.body, Json.Formed Admits 2 f.toJson

/-- An operation, with its parameter and its body if it has them. -/
theorem Operation.Formed.toJson {o : Operation} (h : o.Formed Admits) :
    Json.Formed Admits 7 o.toJson := by
  have hparameters : Json.Formed Admits 6 (.arr [itemParameter o.tag]) :=
    .arr (List.forall_mem_singleton.mpr
      ((itemParameter_formed hwords _).mono (by decide)))
  have hrequest : ∀ j ∈ o.requestBody.map (fun body => Json.obj
      [("required", .bool true), ("content", schemaContent body)]),
      Json.Formed Admits 6 j := by
    intro j hj
    obtain ⟨f, hf, rfl⟩ := Option.map_eq_some_iff.mp hj
    have hcontent :=
      (schemaContent_formed hwords (h.request f hf)).mono (by decide : 4 ≤ 5)
    refine words_formed hwords ["required", "content"] (List.Sublist.refl _) ?_
    simp only [List.forall_mem_cons]
    exact ⟨.bool 5 _, hcontent, List.forall_mem_nil _⟩
  have hresponses : Json.Formed Admits 6 (.obj (o.responses.map Response.entry)) := by
    refine .obj (by rw [List.map_map]; exact h.distinct) (fun e he => ?_) fun e he => ?_
    · obtain ⟨r, hr, rfl⟩ := List.mem_map.mp he
      exact h.statuses r hr
    · obtain ⟨r, hr, rfl⟩ := List.mem_map.mp he
      exact r.entry_formed hwords (h.responses r hr)
  refine words_formed hwords (["summary", "operationId", "tags"]
    ++ ["parameters"] ++ ["requestBody"] ++ ["responses"]) ?_ ?_
  · simp only [List.map_append]
    refine (((List.Sublist.refl _).append ?_).append
      keys_optionalField).append (List.Sublist.refl _)
    split <;> simp
  · simp only [List.forall_mem_append, List.forall_mem_cons]
    refine ⟨⟨⟨⟨.str 6 _, .str 6 _, strings_formed _, List.forall_mem_nil _⟩,
      ?_⟩, optionalField_formed hrequest⟩, hresponses, List.forall_mem_nil _⟩
    split
    · exact List.forall_mem_singleton.mpr hparameters
    · exact List.forall_mem_nil _

/-- A path item of operations for different methods. -/
theorem PathItem.toJson_formed {p : PathItem}
    (hkeys : ("summary" :: p.operations.map (·.method.name)).Nodup)
    (h : ∀ o ∈ p.operations, o.Formed Admits) : Formed Admits 8 p.toJson := by
  have hmethod : ∀ m : HttpMethod, m.name ∈ documentWords := by
    intro m
    cases m <;> decide
  refine .obj ?_ (List.forall_mem_cons.mpr
      ⟨hwords "summary" (by decide), fun e he => ?_⟩)
    (List.forall_mem_cons.mpr ⟨.str 7 _, fun e he => ?_⟩)
  · rw [List.map_cons, List.map_map]
    exact hkeys
  · obtain ⟨o, ho, rfl⟩ := List.mem_map.mp he
    exact hwords _ (hmethod o.method)
  · obtain ⟨o, ho, rfl⟩ := List.mem_map.mp he
    exact (h o ho).toJson hwords

/-- The path items of a resource. -/
theorem crudPaths_formed {name segment error : String} :
    ∀ e ∈ crudPaths name segment error, Formed Admits 8 e.2.toJson := by
  -- an operation is formed by its statuses and the references in its bodies
  have hoperation : ∀ {o : Operation} (statuses : List String),
      o.responses.map Response.status = statuses →
      statuses.Nodup ∧ statuses ⊆ documentWords →
      (∀ f ∈ o.requestBody, Formed Admits 2 f.toJson) →
      (∀ r ∈ o.responses, ∀ f ∈ r.body, Formed Admits 2 f.toJson) →
      o.Formed Admits := by
    rintro o statuses rfl ⟨hdistinct, hsub⟩ hrequest hresponses
    exact ⟨hdistinct, fun r hr => hwords _ (hsub (List.mem_map_of_mem hr)),
      hrequest, hresponses⟩
  have hsome : ∀ {f : Fragment}, Formed Admits 2 f.toJson →
      ∀ g ∈ some f, Formed Admits 2 g.toJson := by
    intro f hf g hg
    injection hg with hg
    exact hg ▸ hf
  have hnone : ∀ g ∈ (none : Option Fragment), Formed Admits 2 g.toJson := nofun
  have hentity := hsome
    ((Fragment.ref_formed hwords (componentRef name)).mono (Nat.le_succ 1))
  have hfailure := hsome ((Fragment.ref_formed hwords error).mono (Nat.le_succ 1))
  have hlist := hsome (Fragment.array_formed hwords
    (Fragment.ref_formed hwords (componentRef name)) withinLimit_none withinLimit_none)
  unfold crudPaths
  simp only [List.forall_mem_cons]
  refine ⟨PathItem.toJson_formed hwords ?_ ?_, PathItem.toJson_formed hwords ?_ ?_,
    List.forall_mem_nil _⟩
  · show ["summary", "get", "post"].Nodup
    decide
  · unfold collectionItem
    simp only [List.forall_mem_cons]
    refine ⟨hoperation ["200"] rfl (by decide) hnone ?_,
      hoperation ["201", "400"] rfl (by decide) hentity ?_, List.forall_mem_nil _⟩
    · exact List.forall_mem_singleton.mpr hlist
    · simp only [List.forall_mem_cons]
      exact ⟨hentity, hfailure, List.forall_mem_nil _⟩
  · show ["summary", "get", "put", "delete"].Nodup
    decide
  · unfold singleItem
    simp only [List.forall_mem_cons]
    refine ⟨hoperation ["200", "404"] rfl (by decide) hnone ?_,
      hoperation ["200", "404"] rfl (by decide) hentity ?_,
      hoperation ["204", "404"] rfl (by decide) hnone ?_, List.forall_mem_nil _⟩
    · simp only [List.forall_mem_cons]
      exact ⟨hentity, hfailure, List.forall_mem_nil _⟩
    · simp only [List.forall_mem_cons]
      exact ⟨hentity, hfailure, List.forall_mem_nil _⟩
    · simp only [List.forall_mem_cons]
      exact ⟨hnone, hfailure, List.forall_mem_nil _⟩

-- ============================================================ documents

omit hwords in
/-- Components are named by declarations. -/
theorem Diagram.mem_declaredNames_of_mem_keys {d : Diagram} {name : String}
    (h : name ∈ d.componentSchemas.keys) : name ∈ d.declaredNames := by
  rw [keys_componentSchemas] at h
  unfold componentNames at h
  rw [List.mem_append, List.mem_eraseDups, List.mem_eraseDups] at h
  rcases h with h | h
  · exact List.mem_append_right _ h
  · exact List.mem_append_left _ (List.mem_filter.mp h).1

namespace Document

/-- The components of a document. -/
theorem components_formed (info : Info) {d : Diagram} (h : d.AdmitsKeys Admits)
    (herror : Admits errorName) (hlimits : ∀ r ∈ d.relations, r.Limited) :
    ∀ e ∈ (ofDiagram info d).components.entries,
      Admits e.1 ∧ Formed Admits 6 e.2.toJson := by
  have hown : ∀ e ∈ d.componentSchemas.entries,
      Admits e.1 ∧ Formed Admits 6 e.2.toJson := by
    intro e he
    have hname := Diagram.mem_declaredNames_of_mem_keys (List.mem_map_of_mem he)
    exact ⟨h.declared _ hname,
      h.componentSchemas hwords hlimits (OrderedMap.get?_of_mem he)⟩
  rw [components_ofDiagram]
  split
  · intro e he
    rcases mem_entries_withErrorSchema he with rfl | he
    · exact ⟨herror, (errorSchema_formed hwords).mono (by decide)⟩
    · exact hown e he
  · exact hown

/-- The document of a diagram has ten levels at most. -/
theorem toJson_formed (info : Info) {d : Diagram} (h : d.AdmitsKeys Admits)
    (herror : Admits errorName) (hlimits : ∀ r ∈ d.relations, r.Limited) :
    Formed Admits 10 (ofDiagram info d).toJson := by
  have hpaths : Formed Admits 9 (pathsJson (ofDiagram info d).paths) := by
    refine mapValues_formed fun e he => ?_
    obtain ⟨c, hc, hcrud⟩ := paths_ofDiagram info d e he
    exact ⟨h.paths c hc e hcrud, crudPaths_formed hwords e hcrud⟩
  have hcomponents : Formed Admits 7 (componentsJson (ofDiagram info d).components) :=
    mapValues_formed (components_formed hwords info h herror hlimits)
  have hschemas : Formed Admits 8
      (.obj [("schemas", componentsJson (ofDiagram info d).components)]) :=
    words_formed hwords ["schemas"] (List.Sublist.refl _)
      (List.forall_mem_singleton.mpr hcomponents)
  have hinfo : Formed Admits 1 (ofDiagram info d).info.toJson := by
    refine words_formed hwords ["title", "version", "description"]
      (List.Sublist.refl _) ?_
    simp only [List.forall_mem_cons]
    exact ⟨.str 0 _, .str 0 _, .str 0 _, List.forall_mem_nil _⟩
  refine words_formed hwords ["openapi", "info", "paths", "components"]
    (List.Sublist.refl _) ?_
  simp only [List.forall_mem_cons]
  exact ⟨.str 9 _, hinfo.mono (by decide), hpaths, hschemas.mono (by decide),
    List.forall_mem_nil _⟩

end Document

end document

end ApiScaffold
