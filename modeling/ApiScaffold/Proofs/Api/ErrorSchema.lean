/-
What building the paths does to the components, and what a path says about
them. The loop over the classes changes the components while it looks into
them, so a class may find its own component only after the shared error schema
has joined, which happens to a class of that name.

Two invariants carry this. That the error schema joins once, at the end, and
nothing else changes is `resourcePaths_components` already. What is left are
the paths: each is one of a class met before, whose component is still there
because components are never lost, and with the first of them the error schema
is in place (`PathsOf`).

What a path says is told twice, of the typed path item and of the JSON that a
document holds for it. `Operation.WrittenAs` joins the two: every answer is
written under its status, with its schema where JSON content keeps it.
-/
import Mathlib.Data.List.Forall2
import Mathlib.Data.List.Nodup
import ApiScaffold.Proofs.Api.Closure
import ApiScaffold.Proofs.Schema.Written

namespace ApiScaffold

-- =================================================== statement vocabulary

/-- The paths of a class, with the error schema for its failures. -/
def pathsOfClass (name : String) : List (String × PathItem) :=
  crudPaths name (pathSegment name) (componentRef errorName)

/-- The responses that describe what went wrong. -/
def Response.IsFailure (r : Response) : Prop :=
  r.status = "400" ∨ r.status = "404"

/-- Failures are described by the error schema, and all other contents, sent
or received, refer to one class. -/
structure PathItem.Concerns (name : String) (p : PathItem) : Prop where
  requests : ∀ o ∈ p.operations, ∀ f ∈ o.requestBody,
    f.RefersWithin (· = componentRef name)
  results : ∀ o ∈ p.operations, ∀ r ∈ o.responses, ¬ r.IsFailure →
    ∀ f ∈ r.body, f.RefersWithin (· = componentRef name)
  failures : ∀ o ∈ p.operations, ∀ r ∈ o.responses, r.IsFailure →
    r.body = some (.ref (componentRef errorName))

/-- The schema that the content of a written request or response has. -/
def Json.content? (message : Json) : Option Json :=
  ((message.field? "content").bind (·.field? "application/json")).bind (·.field? "schema")

/-- A written request or response has content of a given form. -/
def Json.Carries (message : Json) (f : Fragment) : Prop :=
  ∃ schema, message.content? = some schema ∧ f.WrittenAs schema

/-- How an operation is written: what is sent is its request body, and every
answer stands among the responses, in order and under its status. -/
structure Operation.WrittenAs (o : Operation) (j : Json)
    (responses : List (String × Json)) : Prop where
  request : ∀ f ∈ o.requestBody, ∃ body, j.field? "requestBody" = some body ∧ body.Carries f
  field : j.field? "responses" = some (.obj responses)
  answers : List.Forall₂
    (fun r written => written.1 = r.status ∧ ∀ f ∈ r.body, written.2.Carries f)
    o.responses responses

-- ============================================================= path items

/-- Both path items of a class concern it. -/
theorem concerns_of_mem_crudPaths {name segment : String} {e : String × PathItem}
    (he : e ∈ crudPaths name segment (componentRef errorName)) : e.2.Concerns name := by
  simp only [crudPaths, List.mem_cons, List.not_mem_nil, or_false] at he
  rcases he with rfl | rfl
  · constructor <;>
      simp [collectionItem, Response.IsFailure, Fragment.component, Fragment.RefersWithin]
  · constructor <;>
      simp [singleItem, Response.IsFailure, Fragment.component, Fragment.RefersWithin]

/-- The references of a path item are to its class and to the error schema. -/
theorem PathItem.Concerns.toJson_refersWithin {name : String} {p : PathItem}
    (h : p.Concerns name) :
    p.toJson.RefersWithin fun t => t = componentRef name ∨ t = componentRef errorName := by
  refine PathItem.toJson_refersWithin fun o ho => ⟨fun f hf => ?_, fun r hr f hf => ?_⟩
  · exact (h.requests o ho f hf).mono fun _ => Or.inl
  · by_cases hfailure : r.IsFailure
    · rw [h.failures o ho r hr hfailure] at hf
      injection hf with hf
      exact hf ▸ Or.inr rfl
    · exact (h.results o ho r hr hfailure f hf).mono fun _ => Or.inl

/-- Different methods have different keys. -/
theorem HttpMethod.name_injective : Function.Injective HttpMethod.name := by
  intro m m'
  cases m <;> cases m' <;> decide

/-- An operation of a path item is found under its method. -/
theorem PathItem.field?_method {p : PathItem}
    (hdistinct : (p.operations.map Operation.method).Nodup) {o : Operation}
    (ho : o ∈ p.operations) : p.toJson.field? o.method.name = some o.toJson := by
  have hkeys : ((p.operations.map fun o => (o.method.name, o.toJson)).map Prod.fst).Nodup := by
    have heq : (p.operations.map fun o => (o.method.name, o.toJson)).map Prod.fst
        = (p.operations.map Operation.method).map HttpMethod.name := by
      rw [List.map_map, List.map_map]
      rfl
    rw [heq]
    exact hdistinct.map HttpMethod.name_injective
  have hsummary : o.method.name ≠ "summary" := by cases o.method <;> decide
  show List.lookup _ (("summary", Json.str p.summary) :: _) = _
  rw [lookup_cons_eq, if_neg hsummary]
  exact lookup_of_mem hkeys (List.mem_map_of_mem ho)

/-- The methods of a path item are distinct. -/
theorem nodup_methods_of_mem_crudPaths {name segment errorRef : String}
    {e : String × PathItem} (he : e ∈ crudPaths name segment errorRef) :
    (e.2.operations.map Operation.method).Nodup := by
  simp only [crudPaths, List.mem_cons, List.not_mem_nil, or_false] at he
  rcases he with rfl | rfl
  · simp [collectionItem]
  · simp [singleItem]

/-- Content of some form is written with the schema of that form. -/
theorem carries_of_content {message : Json} {f : Fragment}
    (h : message.field? "content" = some (schemaContent f)) : message.Carries f := by
  refine ⟨f.toJson, ?_, f.writtenAs_toJson⟩
  unfold Json.content?
  rw [h]
  rfl

/-- An operation is written as its form says. -/
theorem Operation.writtenAs_toJson (o : Operation) :
    o.WrittenAs o.toJson (o.responses.map Response.entry) := by
  constructor
  · intro f hf
    refine ⟨.obj [("required", .bool true), ("content", schemaContent f)], ?_,
      carries_of_content rfl⟩
    have hbody : o.requestBody = some f := hf
    unfold toJson Json.field?
    simp only
    rw [hbody]
    cases o.onItem <;> simp [Fragment.optionalField, lookup_cons_eq]
  · unfold toJson Json.field?
    simp only
    cases o.onItem <;> cases o.requestBody <;>
      simp [Fragment.optionalField, lookup_cons_eq]
  · rw [List.forall₂_map_right_iff, List.forall₂_same]
    intro r _
    refine ⟨rfl, fun f hf => carries_of_content ?_⟩
    have hbody : r.body = some f := hf
    unfold Response.entry
    rw [hbody]
    rfl

/-- A failure is written with a reference to the error schema. -/
theorem PathItem.Concerns.content?_failure {name : String} {p : PathItem}
    (h : p.Concerns name) {o : Operation} (ho : o ∈ p.operations) {r : String × Json}
    (hr : r ∈ o.responses.map Response.entry) (hfailure : r.1 = "400" ∨ r.1 = "404") :
    r.2.content? = some (.obj [("$ref", .str "#/components/schemas/ApiError")]) := by
  obtain ⟨answer, hanswer, rfl⟩ := List.mem_map.mp hr
  have hbody := h.failures o ho answer hanswer hfailure
  unfold Response.entry
  rw [hbody]
  rfl

-- =================================================================== loop

section loop

variable {α : Type} {error : α}

/-- What holds after some classes of the loop, from given components: none of
those is lost, each path is of a class that was met and has a component, each
such class has its paths, and from the first path on the error schema is in
place. -/
structure PathsOf (schemas : OrderedMap α) (met : List String)
    (state : Bool × OrderedMap PathItem × OrderedMap α) : Prop where
  kept : ∀ name ∈ schemas.keys, name ∈ state.2.2.keys
  error : state.1 = true → errorName ∈ state.2.2.keys
  paths : ∀ e ∈ state.2.1.entries, state.1 = true
    ∧ ∃ name ∈ met, name ∈ state.2.2.keys ∧ e ∈ pathsOfClass name
  served : ∀ name ∈ met, name ∈ schemas.keys →
    (pathsOfClass name).map Prod.fst ⊆ state.2.1.keys

theorem PathsOf.addClassPaths {schemas : OrderedMap α} {met : List String}
    {state : Bool × OrderedMap PathItem × OrderedMap α} (h : PathsOf schemas met state)
    (name : String) :
    PathsOf schemas (met ++ [name]) (addClassPaths error state name) := by
  obtain ⟨ready, paths, now⟩ := state
  obtain ⟨hkept, herror, hpaths, hserved⟩ := h
  unfold ApiScaffold.addClassPaths
  simp only
  split
  next hname =>
    constructor
    · exact fun k hk => mem_keys_ite_withErrorSchema (hkept k hk)
    · intro _
      split
      next hready => exact herror hready
      next => exact mem_keys_withErrorSchema error now
    · refine fun e he => ⟨rfl, ?_⟩
      rcases OrderedMap.mem_entries_putAll he with he | he
      · have hkey := OrderedMap.has_iff.mp hname
        exact ⟨name, by simp, mem_keys_ite_withErrorSchema hkey, he⟩
      · obtain ⟨-, other, hmet, hkey, hitem⟩ := hpaths e he
        exact ⟨other, List.mem_append_left _ hmet,
          mem_keys_ite_withErrorSchema hkey, hitem⟩
    · intro other hother hkey path hpath
      rw [OrderedMap.mem_keys_putAll]
      rcases List.mem_append.mp hother with hmet | hlast
      · exact Or.inl (hserved other hmet hkey hpath)
      · rw [List.mem_singleton.mp hlast] at hpath
        exact Or.inr hpath
  next hname =>
    refine ⟨hkept, herror, fun e he => ?_, fun other hother hkey => ?_⟩
    · obtain ⟨hready, other, hmet, hrest⟩ := hpaths e he
      exact ⟨hready, other, List.mem_append_left _ hmet, hrest⟩
    · rcases List.mem_append.mp hother with hmet | hlast
      · exact hserved other hmet hkey
      · -- a class with a component from the start still has it
        rw [List.mem_singleton.mp hlast] at hkey
        exact absurd (OrderedMap.has_iff.mpr (hkept name hkey)) hname

theorem pathsOf_foldl (schemas : OrderedMap α) (classes : List String) :
    PathsOf schemas classes
      (classes.foldl (addClassPaths error) (false, .empty, schemas)) := by
  induction classes using List.reverseRecOn with
  | nil => exact ⟨fun _ => id, nofun, nofun, nofun⟩
  | append_singleton classes name ih =>
      rw [List.foldl_concat]
      exact ih.addClassPaths name

theorem any_has_iff {classes : List String} {schemas : OrderedMap α} :
    classes.any schemas.has = true ↔ ∃ name ∈ classes, name ∈ schemas.keys := by
  simp only [List.any_eq_true, OrderedMap.has_iff]

variable (classes : List String) (schemas : OrderedMap α)

theorem resourcePaths_components_eq_or :
    (resourcePaths error classes schemas).2 = schemas ∨ errorName ∉ schemas.keys
      ∧ (resourcePaths error classes schemas).2.entries
        = schemas.entries ++ [(errorName, error)] := by
  rw [resourcePaths_components]
  split
  next =>
    by_cases hname : errorName ∈ schemas.keys
    · unfold withErrorSchema
      rw [if_pos (OrderedMap.has_iff.mpr hname)]
      exact Or.inl rfl
    · rw [entries_withErrorSchema, if_neg hname]
      exact Or.inr ⟨hname, rfl⟩
  next => exact Or.inl rfl

theorem errorName_mem_resourcePaths_iff :
    errorName ∈ (resourcePaths error classes schemas).2.keys
      ↔ errorName ∈ schemas.keys ∨ ∃ name ∈ classes, name ∈ schemas.keys := by
  rw [resourcePaths_components]
  split
  next hserved =>
    exact ⟨fun _ => Or.inr (any_has_iff.mp hserved),
      fun _ => mem_keys_withErrorSchema error schemas⟩
  next hserved =>
    exact ⟨Or.inl, fun h => h.resolve_right fun hmem => hserved (any_has_iff.mpr hmem)⟩

variable {classes schemas}

/-- Where no class has a component there are no paths, and nothing changes. -/
theorem resourcePaths_of_none (h : ∀ name ∈ classes, name ∉ schemas.keys) :
    (resourcePaths error classes schemas).1.entries = []
      ∧ (resourcePaths error classes schemas).2 = schemas := by
  have hserved : ¬ classes.any schemas.has = true := fun hany => by
    obtain ⟨name, hname, hkey⟩ := any_has_iff.mp hany
    exact h name hname hkey
  have hloop : PathsClosed error schemas classes _ := pathsClosed_foldl schemas classes
  refine ⟨List.eq_nil_iff_forall_not_mem.mpr fun e he => hserved ?_, ?_⟩
  · rw [← hloop.ready]
    exact ((pathsOf_foldl schemas classes).paths e he).1
  · rw [resourcePaths_components, if_neg hserved]

/-- A path is one of a listed class with a component. -/
theorem exists_class_of_mem_resourcePaths {e : String × PathItem}
    (he : e ∈ (resourcePaths error classes schemas).1.entries) :
    errorName ∈ (resourcePaths error classes schemas).2.keys
      ∧ ∃ name ∈ classes, name ∈ (resourcePaths error classes schemas).2.keys
        ∧ e ∈ pathsOfClass name := by
  have hloop : PathsOf schemas classes (classes.foldl (addClassPaths error) _) :=
    pathsOf_foldl schemas classes
  obtain ⟨hready, name, hname, hkey, hitem⟩ := hloop.paths e he
  exact ⟨hloop.error hready, name, hname, hkey, hitem⟩

/-- A listed class with a component has its paths. -/
theorem pathsOfClass_subset_resourcePaths {name : String} (hname : name ∈ classes)
    (hkey : name ∈ schemas.keys) :
    (pathsOfClass name).map Prod.fst ⊆ (resourcePaths error classes schemas).1.keys :=
  (pathsOf_foldl schemas classes).served name hname hkey

end loop

/-- Building the paths changes the components by the error schema only, which
comes last and joins exactly if some listed class has a component and the name
is free. Every listed class with a component has its paths, and each path is one
of such a class, and refers to it and, for its failures, to the error schema. In
the JSON of a path every operation stands under its method, with the schemas of
what is sent and answered, and each response for a failure refers to the error
schema. -/
theorem resourcePaths_adds_error_schema {α : Type} (error : α) (classes : List String)
    (schemas : OrderedMap α) :
    let made := resourcePaths error classes schemas
    (made.2 = schemas ∨ errorName ∉ schemas.keys
        ∧ made.2.entries = schemas.entries ++ [(errorName, error)])
      ∧ (errorName ∈ made.2.keys
        ↔ errorName ∈ schemas.keys ∨ ∃ name ∈ classes, name ∈ schemas.keys)
      ∧ ((∀ name ∈ classes, name ∉ schemas.keys) →
        made.1.entries = [] ∧ made.2 = schemas)
      ∧ (∀ name ∈ classes, name ∈ schemas.keys →
        (pathsOfClass name).map Prod.fst ⊆ made.1.keys)
      ∧ ∀ e ∈ made.1.entries, errorName ∈ made.2.keys
        ∧ ∃ name ∈ classes, name ∈ made.2.keys ∧ e ∈ pathsOfClass name
          ∧ e.2.Concerns name
          ∧ (e.2.toJson.RefersWithin fun t =>
            t = componentRef name ∨ t = componentRef errorName)
          ∧ ∀ o ∈ e.2.operations, ∃ j responses,
            e.2.toJson.field? o.method.name = some j ∧ o.WrittenAs j responses
              ∧ ∀ r ∈ responses, r.1 = "400" ∨ r.1 = "404" →
                r.2.content?
                  = some (.obj [("$ref", .str "#/components/schemas/ApiError")]) := by
  intro made
  refine ⟨resourcePaths_components_eq_or classes schemas,
    errorName_mem_resourcePaths_iff classes schemas, resourcePaths_of_none,
    fun name hname hkey => pathsOfClass_subset_resourcePaths hname hkey, fun e he => ?_⟩
  obtain ⟨herror, name, hname, hkey, hitem⟩ := exists_class_of_mem_resourcePaths he
  have hconcerns := concerns_of_mem_crudPaths hitem
  refine ⟨herror, name, hname, hkey, hitem, hconcerns, hconcerns.toJson_refersWithin,
    fun o ho => ?_⟩
  exact ⟨o.toJson, _, PathItem.field?_method (nodup_methods_of_mem_crudPaths hitem) ho,
    o.writtenAs_toJson, fun _ hr hfailure => hconcerns.content?_failure ho hr hfailure⟩

/-- A class with the name of the error schema that has no component of its own
finds the error schema in its place, and so it is served. -/
theorem resourcePaths_adds_error_schema_for_namesake :
    let made := resourcePaths "shared" ["Ghost", "User", "ApiError"] (.ofList [("User", "own")])
    made.2.entries = [("User", "own")] ++ [(errorName, "shared")]
      ∧ made.1.keys
        = ["/users", "/users/\x7bid\x7d", "/api-errors", "/api-errors/\x7bid\x7d"]
      ∧ (∀ e ∈ made.1.entries, ∃ name ∈ ["Ghost", "User", "ApiError"],
        name ∈ made.2.keys ∧ e.2.Concerns name)
      ∧ (resourcePaths "shared" ["Ghost"] (.ofList [("User", "own")])).1.entries = [] := by
  intro made
  obtain ⟨hframe, -, -, -, hpaths⟩ := resourcePaths_adds_error_schema "shared"
    ["Ghost", "User", "ApiError"] (.ofList [("User", "own")])
  have hnone := (resourcePaths_adds_error_schema "shared" ["Ghost"]
    (.ofList [("User", "own")])).2.2.1 (by decide)
  refine ⟨(hframe.resolve_left (by decide +kernel)).2, by decide +kernel, ?_, hnone.1⟩
  intro e he
  obtain ⟨-, name, hname, hkey, -, hconcerns, -, -⟩ := hpaths e he
  exact ⟨name, hname, hkey, hconcerns⟩

end ApiScaffold
