/-
Which class is served at a path. Every class gets two paths from the
segment of its name, and the paths of classes are written one after the
other into one map. The segment forgets capitals, hyphens against capitals
and singular against plural, so different names can meet in one segment,
and then the class declared last takes the paths of those before it
(`servesLast_foldl`).

A collection path and an item path never meet: a segment ends in `s`, since
a plural does, and an item path does not (`collectionPath_ne_itemPath`).
-/
import ApiScaffold.Proofs.Api.Closure

namespace ApiScaffold

-- =================================================== statement vocabulary

/-- The text that is reached through fields of objects. -/
def Json.textAt? : Json → List String → Option String
  | .str s, [] => some s
  | _, [] => none
  | j, key :: keys => (j.field? key).bind (·.textAt? keys)

/-- Where the document of an API refers to the schema of a resource: the
items of the list, the body and the result of creation, the result of
reading, the body and the result of an update. -/
def resourcePointers (segment : String) : List (List String) :=
  let collection := ["paths", collectionPath segment]
  let item := ["paths", itemPath segment]
  let content := ["content", "application/json", "schema"]
  [collection ++ ["get", "responses", "200"] ++ content ++ ["items", "$ref"],
   collection ++ ["post", "requestBody"] ++ content ++ ["$ref"],
   collection ++ ["post", "responses", "201"] ++ content ++ ["$ref"],
   item ++ ["get", "responses", "200"] ++ content ++ ["$ref"],
   item ++ ["put", "requestBody"] ++ content ++ ["$ref"],
   item ++ ["put", "responses", "200"] ++ content ++ ["$ref"]]

/-- The document has both paths of the segment, and what is listed,
created, read and updated there is of the named component. -/
def Json.Serves (doc : Json) (segment name : String) : Prop :=
  ∀ p ∈ resourcePointers segment, doc.textAt? p = some (componentRef name)

instance (doc : Json) (segment name : String) :
    Decidable (doc.Serves segment name) :=
  inferInstanceAs (Decidable (∀ p ∈ resourcePointers segment, _))

/-- The last of some names with a segment. -/
def lastWithSegment (names : List String) (segment : String) : Option String :=
  names.reverse.find? fun name => pathSegment name == segment

/-- The class declared last among those with a segment. -/
def Diagram.lastClass? (d : Diagram) (segment : String) : Option String :=
  lastWithSegment (d.classes.map Entity.name) segment

-- =============================================================== segments

/-- A plural ends in `s`. -/
theorem getLast?_plural (s : List Char) : (plural s).getLast? = some 's' := by
  unfold plural
  split
  next h => exact beq_iff_eq.mp h
  split
  · rw [List.getLast?_append]
    rfl
  split
  · split
    · rw [List.getLast?_append]
      rfl
    · rw [List.getLast?_append]
      rfl
  · rw [List.getLast?_append]
    rfl

theorem collectionPath_inj {a b : String}
    (h : collectionPath a = collectionPath b) : a = b := by
  have hlist := congrArg String.toList h
  simp only [collectionPath, String.toList_append, List.append_cancel_left_eq]
    at hlist
  exact String.toList_injective hlist

theorem itemPath_inj {a b : String} (h : itemPath a = itemPath b) : a = b := by
  have hlist := congrArg String.toList h
  simp only [itemPath, String.toList_append, List.append_cancel_right_eq,
    List.append_cancel_left_eq] at hlist
  exact String.toList_injective hlist

/-- No collection path is an item path: they end differently. -/
theorem collectionPath_ne_itemPath (name segment : String) :
    collectionPath (pathSegment name) ≠ itemPath segment := by
  intro h
  have hcollection : (collectionPath (pathSegment name)).toList.getLast?
      = some 's' := by
    have hlist : (collectionPath (pathSegment name)).toList
        = '/' :: plural (kebabCase name).toList := by
      unfold collectionPath pathSegment pluralText
      rw [String.toList_append, String.toList_ofList (l := plural _)]
      rfl
    rw [hlist, List.getLast?_cons, getLast?_plural]
    rfl
  have hitem : (itemPath segment).toList.getLast? = some '\x7d' := by
    unfold itemPath
    rw [String.toList_append, List.getLast?_append]
    rfl
  rw [h, hitem] at hcollection
  exact absurd hcollection (by decide)

-- ================================================================== loop

section loop

variable {α : Type} {error : α}

/-- What stands at the paths of the segments after some classes of the
loop: the path items of the last class with the segment. -/
structure ServesLast (served : List String) (paths : OrderedMap PathItem) :
    Prop where
  collection : ∀ name, paths.get? (collectionPath (pathSegment name))
    = (lastWithSegment served (pathSegment name)).map fun last =>
        collectionItem last (pathSegment name) (componentRef errorName)
  item : ∀ name, paths.get? (itemPath (pathSegment name))
    = (lastWithSegment served (pathSegment name)).map fun last =>
        singleItem last (pathSegment name) (componentRef errorName)

theorem lastWithSegment_concat (served : List String) (name segment : String) :
    lastWithSegment (served ++ [name]) segment
      = if pathSegment name = segment then some name
        else lastWithSegment served segment := by
  unfold lastWithSegment
  rw [List.reverse_concat, List.find?_cons]
  by_cases h : pathSegment name = segment
  · rw [if_pos h, beq_iff_eq.mpr h]
  · rw [if_neg h, beq_eq_false_iff_ne.mpr h]

/-- The class that comes next takes the paths of its segment and leaves the
others. -/
theorem ServesLast.putAll {served : List String} {paths : OrderedMap PathItem}
    (h : ServesLast served paths) (name : String) :
    ServesLast (served ++ [name])
      (paths.putAll
        (crudPaths name (pathSegment name) (componentRef errorName))) := by
  unfold crudPaths
  constructor
  · intro other
    rw [OrderedMap.putAll_cons, OrderedMap.putAll_cons, OrderedMap.putAll_nil,
      OrderedMap.get?_put, OrderedMap.get?_put,
      if_neg (collectionPath_ne_itemPath other _), lastWithSegment_concat,
      h.collection other]
    -- what is left is the write to the collection path of the new class
    by_cases hsegment : pathSegment name = pathSegment other
    · rw [if_pos (by rw [hsegment]), if_pos hsegment, hsegment]
      rfl
    · rw [if_neg fun heq => hsegment (collectionPath_inj heq).symm,
        if_neg hsegment]
  · intro other
    rw [OrderedMap.putAll_cons, OrderedMap.putAll_cons, OrderedMap.putAll_nil,
      OrderedMap.get?_put, OrderedMap.get?_put,
      if_neg (collectionPath_ne_itemPath name _).symm, lastWithSegment_concat,
      h.item other]
    by_cases hsegment : pathSegment name = pathSegment other
    · rw [if_pos (by rw [hsegment]), if_pos hsegment, hsegment]
      rfl
    · rw [if_neg fun heq => hsegment (itemPath_inj heq).symm,
        if_neg hsegment]

/-- The loop over classes with components: names only join the
components, so each class of the rest finds its own. -/
theorem servesLast_foldl (classes : List String) :
    ∀ (served : List String) (ready : Bool) (paths : OrderedMap PathItem)
      (schemas : OrderedMap α), (∀ name ∈ classes, name ∈ schemas.keys) →
      ServesLast served paths →
      ServesLast (served ++ classes)
        (classes.foldl (addClassPaths error) (ready, paths, schemas)).2.1 := by
  induction classes with
  | nil =>
      intro served ready paths schemas _ h
      rw [List.append_nil]
      exact h
  | cons name classes ih =>
      intro served ready paths schemas hkeys h
      have hhas : schemas.has name = true :=
        OrderedMap.has_iff.mpr (hkeys name (by simp))
      have hstep : addClassPaths error (ready, paths, schemas) name
          = (true,
            paths.putAll
              (crudPaths name (pathSegment name) (componentRef errorName)),
            if ready then schemas else withErrorSchema error schemas) := by
        unfold addClassPaths
        simp only
        rw [if_pos hhas]
      rw [List.foldl_cons, hstep, List.append_cons]
      -- the error schema may have joined the components meanwhile
      refine ih _ _ _ _ (fun other hother => ?_) (h.putAll name)
      exact mem_keys_ite_withErrorSchema (hkeys other (List.mem_cons_of_mem _ hother))

end loop

-- ============================================================= documents

/-- The path items of a segment in the document of a diagram. -/
theorem Document.servesLast_ofDiagram (info : Info) (d : Diagram) :
    ServesLast (d.classes.map Entity.name) (ofDiagram info d).paths := by
  apply servesLast_foldl (d.classes.map Entity.name) [] false .empty _
  · exact fun name hname => Builder.mem_keys_componentSchemas_of_class hname
  · exact ⟨fun _ => rfl, fun _ => rfl⟩

theorem Json.textAt?_obj (fields : List (String × Json)) (key : String)
    (keys : List String) :
    (Json.obj fields).textAt? (key :: keys)
      = (fields.lookup key).bind (·.textAt? keys) := rfl

theorem Json.textAt?_str (s : String) : (Json.str s).textAt? [] = some s := rfl

/-- A pointer into the paths of a document leads through a path item. -/
theorem Document.textAt?_toJson (doc : Document) (path : String)
    (keys : List String) :
    doc.toJson.textAt? ("paths" :: path :: keys)
      = (doc.paths.get? path).bind fun p => p.toJson.textAt? keys := by
  have hfield : (OrderedMap.mapValues PathItem.toJson doc.paths).entries.lookup path
      = (doc.paths.get? path).map PathItem.toJson :=
    lookup_map_entry (fun _ => PathItem.toJson) path doc.paths.entries
  have hpaths : doc.toJson.textAt? ("paths" :: path :: keys)
      = (pathsJson doc.paths).textAt? (path :: keys) := by
    unfold Document.toJson
    simp [Json.textAt?_obj, lookup_cons_eq]
  rw [hpaths, pathsJson, Json.textAt?_obj, hfield, Option.bind_map]
  rfl

/-- The document serves the component whose path items it has. -/
theorem Document.serves_of_get? {doc : Document} {segment name errorRef : String}
    (hcollection : doc.paths.get? (collectionPath segment)
      = some (collectionItem name segment errorRef))
    (hitem : doc.paths.get? (itemPath segment)
      = some (singleItem name segment errorRef)) :
    doc.toJson.Serves segment name := by
  unfold Json.Serves resourcePointers
  simp only [List.forall_mem_cons, List.cons_append, List.nil_append,
    Document.textAt?_toJson, hcollection, hitem, Option.bind_some]
  simp [collectionItem, singleItem, PathItem.toJson, Operation.toJson,
    Response.entry, HttpMethod.name, schemaContent, Fragment.toJson,
    Fragment.component, Fragment.optionalField, Json.textAt?_obj,
    Json.textAt?_str, lookup_cons_eq]

/-- One component is served at a segment. -/
theorem Json.Serves.unique {doc : Json} {segment a b : String}
    (ha : doc.Serves segment a) (hb : doc.Serves segment b) : a = b := by
  have hmem : resourcePointers segment ≠ [] := by simp [resourcePointers]
  obtain ⟨p, ps, hp⟩ := List.exists_cons_of_ne_nil hmem
  have hpa := ha p (by simp [hp])
  rw [hb p (by simp [hp])] at hpa
  injection hpa with hpa
  exact (componentRef_inj.mp hpa).symm

/-- Some name is the last with the segment of a name in the list. -/
theorem exists_lastWithSegment {names : List String} {name : String}
    (h : name ∈ names) :
    ∃ last ∈ names, pathSegment last = pathSegment name
      ∧ lastWithSegment names (pathSegment name) = some last := by
  have hsome : (names.reverse.find?
      fun other => pathSegment other == pathSegment name).isSome = true := by
    rw [List.find?_isSome]
    exact ⟨name, List.mem_reverse.mpr h, by simp⟩
  obtain ⟨last, hlast⟩ := Option.isSome_iff_exists.mp hsome
  have hsegment := List.find?_some hlast
  rw [beq_iff_eq] at hsegment
  exact ⟨last, List.mem_reverse.mp (List.mem_of_find?_eq_some hlast),
    hsegment, hlast⟩

/-- At the segment of a class the last class with it is served. -/
theorem Document.serves_last (info : Info) {d : Diagram} {name last : String}
    (h : d.lastClass? (pathSegment name) = some last) :
    (ofDiagram info d).toJson.Serves (pathSegment name) last := by
  have hpaths := servesLast_ofDiagram info d
  have hcollection := hpaths.collection name
  have hitem := hpaths.item name
  unfold Diagram.lastClass? at h
  rw [h] at hcollection hitem
  exact serves_of_get? hcollection hitem

/-- The paths of a class exist and serve the class declared last among
those with its segment. So a class keeps its endpoints exactly if that is
its own name, and all classes do exactly if no two names of classes share a
segment. -/
theorem classes_served_iff_segments_distinct {info : Info} {text : String}
    {doc : Document} (h : Document.ofText info text = .ok doc) :
    ∃ d, Diagram.parse text = .ok d
      ∧ (∀ c ∈ d.classes, ∃ last ∈ d.classes,
        d.lastClass? (pathSegment c.name) = some last.name
          ∧ doc.toJson.Serves (pathSegment c.name) last.name
          ∧ (doc.toJson.Serves (pathSegment c.name) c.name
            ↔ last.name = c.name))
      ∧ ((∀ c ∈ d.classes, doc.toJson.Serves (pathSegment c.name) c.name)
        ↔ ∀ c ∈ d.classes, ∀ c' ∈ d.classes,
          pathSegment c.name = pathSegment c'.name → c.name = c'.name) := by
  obtain ⟨d, hparse, rfl⟩ := Document.ofText_eq_ok.mp h
  have hserved : ∀ c ∈ d.classes, ∃ last ∈ d.classes,
      pathSegment last.name = pathSegment c.name
        ∧ d.lastClass? (pathSegment c.name) = some last.name
        ∧ (Document.ofDiagram info d).toJson.Serves
          (pathSegment c.name) last.name := by
    intro c hc
    have hname : c.name ∈ d.classes.map Entity.name := List.mem_map_of_mem hc
    obtain ⟨_, hin, hsegment, hlast⟩ := exists_lastWithSegment hname
    obtain ⟨last, hmem, rfl⟩ := List.mem_map.mp hin
    exact ⟨last, hmem, hsegment, hlast, Document.serves_last info hlast⟩
  refine ⟨d, hparse, fun c hc => ?_, fun hall c hc c' hc' hsegment => ?_,
    fun hdistinct c hc => ?_⟩
  · obtain ⟨last, hmem, -, hlast, hserves⟩ := hserved c hc
    refine ⟨last, hmem, hlast, hserves, hserves.unique, fun hname => ?_⟩
    rw [hname] at hserves
    exact hserves
  · have hserves := hall c hc
    rw [hsegment] at hserves
    exact hserves.unique (hall c' hc')
  · obtain ⟨last, hmem, hsegment, -, hserves⟩ := hserved c hc
    rw [hdistinct last hmem c hc hsegment] at hserves
    exact hserves

/-- Classes with segments of their own keep their endpoints, also where a
name is declared twice. -/
theorem classes_served_of_box_and_category :
    let d : Diagram :=
      { classes := [{ name := "Box" }, { name := "Category" }, { name := "Box" }] }
    let text :=
      "class Box \x7b\n\x7d\nclass Category \x7b\n\x7d\nclass Box \x7b\n\x7d\n"
    Diagram.parse text = .ok d
      ∧ ∃ doc, Document.ofText {} text = .ok doc
        ∧ ∀ c ∈ d.classes, doc.toJson.Serves (pathSegment c.name) c.name := by
  intro d text
  have hparse : Diagram.parse text = .ok d := by decide +kernel
  have hdoc : Document.ofText {} text = .ok (Document.ofDiagram {} d) :=
    Document.ofText_eq_ok.mpr ⟨d, hparse, rfl⟩
  obtain ⟨d', hparse', -, hall⟩ := classes_served_iff_segments_distinct hdoc
  rw [hparse] at hparse'
  injection hparse' with hd
  subst hd
  exact ⟨hparse, _, hdoc, hall.mpr (by decide +kernel)⟩

/-- Two classes whose names differ in a plural: the endpoints of the first
are gone. -/
theorem user_loses_endpoints_to_users :
    let d : Diagram := { classes := [{ name := "User" }, { name := "Users" }] }
    let text := "class User \x7b\n\x7d\nclass Users \x7b\n\x7d\n"
    Diagram.parse text = .ok d
      ∧ ∃ doc, Document.ofText {} text = .ok doc
        ∧ doc.toJson.Serves (pathSegment "User") "Users"
        ∧ ¬ doc.toJson.Serves (pathSegment "User") "User" := by
  intro d text
  have hparse : Diagram.parse text = .ok d := by decide +kernel
  have hdoc : Document.ofText {} text = .ok (Document.ofDiagram {} d) :=
    Document.ofText_eq_ok.mpr ⟨d, hparse, rfl⟩
  exact ⟨hparse, _, hdoc, by decide +kernel, by decide +kernel⟩

end ApiScaffold
