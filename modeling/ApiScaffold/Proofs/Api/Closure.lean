/-
Reference closure of documents: every reference of the document of a
diagram names a component schema of that document, for any diagram at
all, and so the check of references has nothing to say about a document
made from a text.

Components refer to each other by declared names (`Schema.Closure`), and
what is left are the paths. They are made in a loop that adds the shared
error schema on the way, and each path item refers to its class and to
that schema. `resourcePaths_components` says what the loop does to the
components, whatever names it meets: the error schema is added at most
once, and only if some class has a component. `PathsClosed` is the
invariant about the paths: pointers name components at hand, which only
grow.

The check looks at one reference after the other, and against an object what
it finds is a matter of the target and the listed names alone
(`faultsOfReferences_obj`).
-/
import ApiScaffold.Api.Document
import ApiScaffold.Api.Reference
import ApiScaffold.Proofs.Schema.Closure
import Mathlib.Data.List.Induction

namespace ApiScaffold

-- ================================================================== paths

section paths

variable {α : Type} {error : α}

/-- The error schema is there once it has been added. -/
theorem mem_keys_withErrorSchema (error : α) (schemas : OrderedMap α) :
    errorName ∈ (withErrorSchema error schemas).keys := by
  unfold withErrorSchema
  split
  next h => exact OrderedMap.has_iff.mp h
  next => exact OrderedMap.mem_keys_put.mpr (Or.inl rfl)

/-- Adding the error schema deletes no name. -/
theorem mem_keys_withErrorSchema_of_mem {schemas : OrderedMap α}
    {name : String} (h : name ∈ schemas.keys) :
    name ∈ (withErrorSchema error schemas).keys := by
  unfold withErrorSchema
  split
  · exact h
  · exact OrderedMap.mem_keys_put.mpr (Or.inr h)

/-- No name is lost where the error schema joins unless it has before. -/
theorem mem_keys_ite_withErrorSchema {ready : Bool} {schemas : OrderedMap α}
    {name : String} (h : name ∈ schemas.keys) :
    name ∈ (if ready then schemas else withErrorSchema error schemas).keys := by
  split
  · exact h
  · exact mem_keys_withErrorSchema_of_mem h

/-- An entry after adding the error schema was there before or is it. -/
theorem mem_entries_withErrorSchema {schemas : OrderedMap α}
    {e : String × α} (h : e ∈ (withErrorSchema error schemas).entries) :
    e = (errorName, error) ∨ e ∈ schemas.entries := by
  unfold withErrorSchema at h
  split at h
  · exact Or.inr h
  · exact OrderedMap.mem_entries_put h

/-- The error schema joins the components at the end, if its name is new. -/
theorem entries_withErrorSchema (error : α) (schemas : OrderedMap α) :
    (withErrorSchema error schemas).entries
      = schemas.entries
        ++ if errorName ∈ schemas.keys then [] else [(errorName, error)] := by
  unfold withErrorSchema
  by_cases h : errorName ∈ schemas.keys
  · rw [if_pos (OrderedMap.has_iff.mpr h), if_pos h, List.append_nil]
  · rw [if_neg fun hhas => h (OrderedMap.has_iff.mp hhas), if_neg h,
      OrderedMap.entries_put_of_not_mem h]

/-- The error schema holds no pointer. -/
theorem errorSchema_refersWithin {P : String → Prop} :
    errorSchema.RefersWithin P := by
  intro e he
  rcases OrderedMap.mem_entries_putAll he with he | he
  · simp only [List.mem_cons, List.not_mem_nil, or_false] at he
    rcases he with rfl | rfl <;> trivial
  · cases he

/-- The two paths of a resource refer to it and to the error schema. -/
theorem crudPaths_refersWithin {names : List String} {name segment : String}
    (hname : name ∈ names) (herror : errorName ∈ names) :
    ∀ e ∈ crudPaths name segment (componentRef errorName),
      e.2.RefersWithin (PointsInto names) := by
  have hentity : PointsInto names (componentRef name) := ⟨name, hname, rfl⟩
  have hfailure : PointsInto names (componentRef errorName) :=
    ⟨errorName, herror, rfl⟩
  intro e he
  simp only [crudPaths, List.mem_cons, List.not_mem_nil, or_false] at he
  rcases he with rfl | rfl
  · simp [collectionItem, PathItem.RefersWithin, Operation.RefersWithin,
      Response.RefersWithin, Fragment.RefersWithin, Fragment.component,
      hentity, hfailure]
  · simp [singleItem, PathItem.RefersWithin, Operation.RefersWithin,
      Response.RefersWithin, Fragment.RefersWithin, Fragment.component,
      hentity, hfailure]

/-- What holds after some classes of the loop: a class was served when one
of them had a component from the start, the error schema is in place
exactly then, and the paths made so far point into the components at
hand. -/
structure PathsClosed (error : α) (schemas : OrderedMap α)
    (served : List String)
    (state : Bool × OrderedMap PathItem × OrderedMap α) : Prop where
  ready : state.1 = served.any schemas.has
  components : state.2.2
    = if served.any schemas.has then withErrorSchema error schemas
      else schemas
  paths : ∀ e ∈ state.2.1.entries,
    e.2.RefersWithin (PointsInto state.2.2.keys)

/-- A class more is served when it finds a component at hand: the error
schema among those is there only where some class was served before. -/
theorem PathsClosed.any_append {schemas : OrderedMap α}
    {served : List String}
    {state : Bool × OrderedMap PathItem × OrderedMap α}
    (h : PathsClosed error schemas served state) (name : String) :
    (served ++ [name]).any schemas.has
      = (served.any schemas.has || state.2.2.has name) := by
  have hnow := h.components
  rw [List.any_append]
  by_cases hserved : served.any schemas.has = true
  · rw [hserved, Bool.true_or, Bool.true_or]
  · rw [if_neg hserved] at hnow
    rw [hnow, List.any_cons, List.any_nil, Bool.or_false]

/-- One more class keeps the paths closed. -/
theorem PathsClosed.addClassPaths {schemas : OrderedMap α}
    {served : List String}
    {state : Bool × OrderedMap PathItem × OrderedMap α}
    (h : PathsClosed error schemas served state) (name : String) :
    PathsClosed error schemas (served ++ [name])
      (addClassPaths error state name) := by
  have hany := h.any_append name
  obtain ⟨ready, paths, now⟩ := state
  obtain ⟨hready, hnow, hpaths⟩ := h
  simp only at hready hnow hpaths hany
  subst hready
  unfold ApiScaffold.addClassPaths
  simp only
  split
  next hname =>
    rw [hname, Bool.or_true] at hany
    -- the first class served brings the error schema, a later one finds it
    have hnext : (if served.any schemas.has = true then now
        else withErrorSchema error now) = withErrorSchema error schemas := by
      rw [hnow]
      split <;> rfl
    have hgrow : ∀ n ∈ now.keys, n ∈ (withErrorSchema error schemas).keys := by
      intro n hn
      rw [← hnext]
      exact mem_keys_ite_withErrorSchema hn
    rw [hnext]
    refine ⟨hany.symm, (if_pos hany).symm, fun e he => ?_⟩
    rcases OrderedMap.mem_entries_putAll he with he | he
    · exact crudPaths_refersWithin
        (hgrow name (OrderedMap.has_iff.mp hname))
        (mem_keys_withErrorSchema error schemas) e he
    · exact (hpaths e he).mono (PointsInto.mono hgrow)
  next hname =>
    rw [Bool.not_eq_true] at hname
    rw [hname, Bool.or_false] at hany
    exact ⟨hany.symm, by rw [hany]; exact hnow, hpaths⟩

/-- The paths are closed after any classes. -/
theorem pathsClosed_foldl (schemas : OrderedMap α) (classes : List String) :
    PathsClosed error schemas classes
      (classes.foldl (addClassPaths error) (false, .empty, schemas)) := by
  induction classes using List.reverseRecOn with
  | nil => exact ⟨rfl, rfl, nofun⟩
  | append_singleton classes name ih =>
      rw [List.foldl_concat]
      exact ih.addClassPaths name

/-- The components after the loop: the error schema is added once, and
only where some class had a component. -/
theorem resourcePaths_components (classes : List String)
    (schemas : OrderedMap α) :
    (resourcePaths error classes schemas).2
      = if classes.any schemas.has then withErrorSchema error schemas
        else schemas :=
  (pathsClosed_foldl schemas classes).components

end paths

-- ============================================================== documents

/-- The document of a text is that of the diagram it reads as. -/
theorem Document.ofText_eq_ok {info : Info} {text : String}
    {doc : Document} :
    Document.ofText info text = .ok doc
      ↔ ∃ d, Diagram.parse text = .ok d ∧ Document.ofDiagram info d = doc := by
  unfold Document.ofText
  cases Diagram.parse text with
  | error e => simp [Except.map]
  | ok d => simp [Except.map]

/-- The names under `components` and `schemas` of a document. -/
def Json.componentNames (doc : Json) : List String :=
  match (doc.field? "components").bind (·.field? "schemas") with
  | some schemas => schemas.fieldsOf.map Prod.fst
  | none => []

/-- The components found in the JSON of a document are its own. -/
theorem Document.componentNames_toJson (d : Document) :
    d.toJson.componentNames = d.components.keys := by
  unfold Json.componentNames Document.toJson
  exact OrderedMap.keys_mapValues Component.toJson d.components

/-- The table that references are checked against holds the components,
also where there are none. -/
theorem Document.componentTable_toJson (d : Document) :
    d.toJson.componentTable = .ok (componentsJson d.components) := by
  have htable : orEmptyObject (some (componentsJson d.components))
      = componentsJson d.components := by
    unfold componentsJson
    cases (d.components.mapValues Component.toJson).entries with
    | nil => rfl
    | cons e es => rfl
  exact congrArg Except.ok htable

/-- The parts of the document of a diagram refer to its own components. -/
theorem Document.ofDiagram_parts_refersWithin (info : Info) (d : Diagram) :
    let doc := Document.ofDiagram info d
    (∀ e ∈ doc.paths.entries, e.2.RefersWithin (PointsInto doc.components.keys))
      ∧ ∀ e ∈ doc.components.entries, e.2.RefersWithin (PointsInto doc.components.keys) := by
  have hloop : PathsClosed (Component.object errorSchema) _ _ _ :=
    pathsClosed_foldl d.componentSchemas (d.classes.map Entity.name)
  refine ⟨hloop.paths, ?_⟩
  have hown := d.componentSchemas_refersWithin
  have hcomponents : (Document.ofDiagram info d).components = _ :=
    hloop.components
  rw [hcomponents]
  split
  next =>
    intro e he
    rcases mem_entries_withErrorSchema he with rfl | he
    · exact errorSchema_refersWithin
    · exact (hown e he).mono
        (PointsInto.mono fun _ => mem_keys_withErrorSchema_of_mem)
  next => exact hown

/-- Every reference in the document of a diagram names one of its components. -/
theorem Document.ofDiagram_refersWithin (info : Info) (d : Diagram) :
    (Document.ofDiagram info d).toJson.RefersWithin
      (PointsInto (Document.ofDiagram info d).components.keys) := by
  obtain ⟨hpaths, hcomponents⟩ := Document.ofDiagram_parts_refersWithin info d
  exact Document.toJson_refersWithin hpaths hcomponents

-- ================================================================= check

namespace Reference

/-- The reference does not point at a component schema. -/
def Foreign (r : Reference) : Prop := ∀ name, r.target ≠ componentRef name

/-- The reference points at a component schema whose name is not listed. -/
def Dangling (names : List String) (r : Reference) : Prop :=
  ∃ name, r.target = componentRef name ∧ name ∉ names

variable {r : Reference} {name : String} {names : List String}

/-- A reference names a component exactly if it points to it. -/
theorem component?_eq_some : r.component? = some name ↔ r.target = componentRef name := by
  unfold component?
  constructor
  · intro h
    split at h
    next hstart =>
      injection h with h
      obtain ⟨rest, hrest⟩ := List.isPrefixOf_iff_prefix.mp hstart
      rw [← h, ← hrest, ← String.length_toList, List.drop_left]
      apply String.toList_injective
      unfold componentRef
      rw [String.toList_append, String.toList_ofList, hrest]
    next => cases h
  · intro h
    rw [h]
    unfold componentRef
    rw [String.toList_append, if_pos (by simp), ← String.length_toList,
      List.drop_left, String.ofList_toList]

/-- A reference names no component exactly if it points elsewhere. -/
theorem component?_eq_none : r.component? = none ↔ r.Foreign := by
  rw [Option.eq_none_iff_forall_ne_some]
  simp only [ne_eq, component?_eq_some, Foreign]

instance (r : Reference) : Decidable r.Foreign :=
  decidable_of_iff (r.component? = none) component?_eq_none

/-- A reference to a component dangles exactly if that is missing. -/
theorem dangling_iff_of_target (h : r.target = componentRef name) :
    r.Dangling names ↔ name ∉ names := by
  constructor
  · rintro ⟨other, hother, hnew⟩
    have hsame := component?_eq_some.mpr h
    rw [component?_eq_some.mpr hother] at hsame
    injection hsame with hsame
    exact hsame ▸ hnew
  · exact fun hnew => ⟨name, h, hnew⟩

/-- A reference that dangles does not point elsewhere. -/
theorem Dangling.not_foreign (h : r.Dangling names) : ¬ r.Foreign := by
  obtain ⟨name, htarget, -⟩ := h
  exact fun hforeign => hforeign name htarget

instance (names : List String) (r : Reference) : Decidable (r.Dangling names) :=
  match h : r.component? with
  | none => isFalse fun hdangling => hdangling.not_foreign (component?_eq_none.mp h)
  | some _ => decidable_of_iff _ (dangling_iff_of_target (component?_eq_some.mp h)).symm

/-- What the check finds about a reference where the component schemas have the
given names. -/
def faultAmong (names : List String) (r : Reference) : Option ReferenceFault :=
  if r.Foreign then some (.foreign r)
  else if r.Dangling names then some (.unresolved r)
  else none

/-- There is nothing to say about a reference to a component that is there. -/
theorem faultAmong_of_pointsInto (h : PointsInto names r.target) :
    r.faultAmong names = none := by
  obtain ⟨name, hname, htarget⟩ := h
  unfold faultAmong
  rw [if_neg fun hforeign => hforeign name htarget, if_neg]
  rw [dangling_iff_of_target htarget]
  exact fun hnew => hnew hname

theorem fault?_obj (table : List (String × Json)) (r : Reference) :
    r.fault? (.obj table) = .ok (r.faultAmong (table.map Prod.fst)) := by
  unfold fault?
  cases h : r.component? with
  | none =>
      unfold faultAmong
      rw [if_pos (component?_eq_none.mp h)]
  | some name =>
      have htarget := component?_eq_some.mp h
      have hlisted : (table.lookup name).isSome = true ↔ name ∈ table.map Prod.fst :=
        isSome_lookup_iff
      refine congrArg Except.ok ?_
      simp only [hlisted]
      split
      next hname => exact (faultAmong_of_pointsInto ⟨name, hname, htarget⟩).symm
      next hname =>
        unfold faultAmong
        rw [if_neg fun hforeign => hforeign name htarget,
          if_pos ((dangling_iff_of_target htarget).mpr hname)]

end Reference

/-- Against an object the check finds what is wrong with each reference, in
order. -/
theorem faultsOfReferences_obj (table : List (String × Json)) (rs : List Reference) :
    faultsOfReferences (.obj table) rs
      = .ok (rs.filterMap (Reference.faultAmong (table.map Prod.fst))) := by
  induction rs with
  | nil => rfl
  | cons r rs ih =>
      unfold faultsOfReferences
      rw [Reference.fault?_obj, ih, List.filterMap_cons]
      cases r.faultAmong (table.map Prod.fst) with
      | none => rfl
      | some fault => rfl

/-- References that name listed schemas have no fault. -/
theorem faultsOfReferences_eq_nil {fields : List (String × Json)} {rs : List Reference}
    (h : ∀ r ∈ rs, PointsInto (fields.map Prod.fst) r.target) :
    faultsOfReferences (.obj fields) rs = .ok [] := by
  rw [faultsOfReferences_obj, List.filterMap_eq_nil_iff.mpr]
  exact fun r hr => Reference.faultAmong_of_pointsInto (h r hr)

/-- Every reference of the document of a diagram, whatever its names, is
the component prefix followed by the name of one of its components, and
so the references of a document made from a text have no fault. -/
theorem references_name_components :
    (∀ (info : Info) (d : Diagram),
      ∀ r ∈ (Document.ofDiagram info d).toJson.references "#",
        ∃ name ∈ (Document.ofDiagram info d).toJson.componentNames,
          r.target = componentRefStart ++ name)
    ∧ ∀ (info : Info) (text : String) (doc : Document),
        Document.ofText info text = .ok doc →
        doc.toJson.referenceFaults = .ok [] := by
  constructor
  · intro info d r hr
    rw [Document.componentNames_toJson]
    exact Document.ofDiagram_refersWithin info d "#" r hr
  · intro info text doc h
    obtain ⟨d, -, rfl⟩ := Document.ofText_eq_ok.mp h
    have hrefs := Document.ofDiagram_refersWithin info d "#"
    rw [← OrderedMap.keys_mapValues Component.toJson] at hrefs
    unfold Json.referenceFaults
    rw [Document.componentTable_toJson]
    exact faultsOfReferences_eq_nil hrefs

/-- A class with the name of the error schema, which refers to itself and
inherits from an undeclared class. -/
theorem references_name_components_of_error_class :
    ∃ doc, Document.ofText {}
        "class ApiError \x7b\n+next: ApiError[]\n\x7d\nNobody <|-- ApiError\n"
          = .ok doc
      ∧ doc.toJson.referenceFaults = .ok []
      ∧ ∃ name ∈ doc.toJson.componentNames,
        "#/components/schemas/ApiError" = componentRefStart ++ name := by
  let d : Diagram := {
    classes := [{
      name := "ApiError", attributes := [⟨"next", some "ApiError[]", .pub⟩] }]
    relations := [⟨"Nobody", "ApiError", .inheritance, "<|--", none, none⟩] }
  have hparse : Diagram.parse
      "class ApiError \x7b\n+next: ApiError[]\n\x7d\nNobody <|-- ApiError\n"
        = .ok d := by
    decide +kernel
  have hdoc : Document.ofText {}
      "class ApiError \x7b\n+next: ApiError[]\n\x7d\nNobody <|-- ApiError\n"
        = .ok (Document.ofDiagram {} d) :=
    Document.ofText_eq_ok.mpr ⟨d, hparse, rfl⟩
  have href : ⟨"#/components/schemas/ApiError/properties/next/items",
        "#/components/schemas/ApiError"⟩
      ∈ (Document.ofDiagram {} d).toJson.references "#" := by
    decide +kernel
  exact ⟨_, hdoc, references_name_components.2 _ _ _ hdoc,
    references_name_components.1 _ d _ href⟩

end ApiScaffold
