/-
The order of declarations. A diagram whose classes, interfaces and
enumerations are declared in another order becomes the same document up to
the order of its keys.

Nothing has to be followed through the builder for that. What a component is
has been put in closed form (`Diagram.get?_componentSchemas_eq`), and there
the declarations enter in two ways only: as the set of their names, when a
type, a relation or a parent is looked up, and as those of one name. A
permutation keeps the first, and where names are distinct the second too,
since it is one declaration or none (`filter_key_of_perm`).

Paths are the same argument with the segment of a class for its name, so it
is the segments that must be distinct there.
-/
import ApiScaffold.Proofs.Api.ComponentNames
import ApiScaffold.Proofs.Api.Identifiers

namespace ApiScaffold

-- =================================================== statement vocabulary

/-- The declarations of each kind come in some other order, the relations in
the same. -/
structure Diagram.Reorders (d' d : Diagram) : Prop where
  classes : d'.classes.Perm d.classes
  interfaces : d'.interfaces.Perm d.interfaces
  enums : d'.enums.Perm d.enums
  relations : d'.relations = d.relations

/-- No two classes, no two interfaces and no two enumerations have one
name. -/
structure Diagram.NamesDistinct (d : Diagram) : Prop where
  classes : (d.classes.map Entity.name).Nodup
  interfaces : (d.interfaces.map Entity.name).Nodup
  enums : (d.enums.map Enumeration.name).Nodup

/-- Two maps have the same keys and the same value under each, perhaps in
another order. -/
structure OrderedMap.Reorders {α : Type} (m' m : OrderedMap α) : Prop where
  value : ∀ key, m'.get? key = m.get? key
  keys : m'.keys.Perm m.keys

-- ============================================================== one by key

section keyed

variable {α : Type} {key : α → String} {l l' : List α}

/-- With distinct keys at most one element has a given one. -/
theorem filter_key_eq_nil_or (h : (l.map key).Nodup) (k : String) :
    l.filter (key · == k) = [] ∨ ∃ a, l.filter (key · == k) = [a] := by
  induction l with
  | nil => exact Or.inl rfl
  | cons a l ih =>
      obtain ⟨ha, hl⟩ := List.nodup_cons.mp h
      by_cases hk : key a = k
      · have hnone : l.filter (key · == k) = [] := by
          rw [List.filter_eq_nil_iff]
          intro b hb hkey
          rw [beq_iff_eq] at hkey
          exact ha (hk ▸ hkey ▸ List.mem_map_of_mem hb)
        exact Or.inr ⟨a, by rw [List.filter_cons_of_pos (by simpa using hk), hnone]⟩
      · rw [List.filter_cons_of_neg (by simpa using hk)]
        exact ih hl

/-- The element with a key is the same in any order. -/
theorem filter_key_of_perm (hperm : l'.Perm l) (h : (l.map key).Nodup)
    (k : String) : l'.filter (key · == k) = l.filter (key · == k) := by
  have hfilter := hperm.filter (key · == k)
  rcases filter_key_eq_nil_or h k with hnil | ⟨a, hone⟩
  · rw [hnil] at hfilter ⊢
    exact hfilter.eq_nil
  · rw [hone] at hfilter ⊢
    exact hfilter.eq_singleton

/-- So is the last element with a key. -/
theorem findLast_key_of_perm (hperm : l'.Perm l) (h : (l.map key).Nodup)
    (k : String) :
    l'.reverse.find? (key · == k) = l.reverse.find? (key · == k) := by
  rw [← List.head?_filter, ← List.head?_filter, List.filter_reverse,
    List.filter_reverse, filter_key_of_perm hperm h]

end keyed

/-- Two maps with the same values have the same keys. -/
theorem OrderedMap.Reorders.of_value {α : Type} {m' m : OrderedMap α}
    (h : ∀ key, m'.get? key = m.get? key) : m'.Reorders m := by
  refine ⟨h, (List.perm_ext_iff_of_nodup m'.nodup_keys m.nodup_keys).mpr fun key => ?_⟩
  rw [← has_iff, ← has_iff, has, has, h]

/-- Which names a list contains is all that a look into it tells. -/
theorem contains_congr {names names' : List String}
    (h : ∀ name, name ∈ names' ↔ name ∈ names) :
    names'.contains = names.contains := by
  funext name
  rw [Bool.eq_iff_iff, List.contains_iff_mem, List.contains_iff_mem, h]

-- ============================================================ declarations

/-- A type only asks which names are declared. -/
theorem fragmentOfType_congr {names names' : List String}
    (h : ∀ name, name ∈ names' ↔ name ∈ names) (type : Option String) :
    fragmentOfType names' type = fragmentOfType names type := by
  unfold fragmentOfType resolveName
  rw [contains_congr h]

namespace Diagram.Reorders

variable {d' d : Diagram}

theorem entities (h : d'.Reorders d) : d'.entities.Perm d.entities :=
  h.classes.append h.interfaces

theorem mem_entityNames (h : d'.Reorders d) {name : String} :
    name ∈ d'.entityNames ↔ name ∈ d.entityNames :=
  (h.entities.map Entity.name).mem_iff

theorem mem_declaredNames (h : d'.Reorders d) {name : String} :
    name ∈ d'.declaredNames ↔ name ∈ d.declaredNames :=
  ((h.entities.map Entity.name).append (h.enums.map Enumeration.name)).mem_iff

/-- The declarations of one name are the same: a class, an interface or
both. -/
theorem filter_name (h : d'.Reorders d) (hd : d.NamesDistinct)
    (name : String) :
    (d'.classes ++ d'.interfaces).filter (·.name == name)
      = (d.classes ++ d.interfaces).filter (·.name == name) := by
  rw [List.filter_append, List.filter_append,
    filter_key_of_perm h.classes hd.classes,
    filter_key_of_perm h.interfaces hd.interfaces]

theorem writesTo (h : d'.Reorders d) (hd : d.NamesDistinct) (name : String) :
    d'.writesTo name = d.writesTo name := by
  have htypes : fragmentOfType d'.declaredNames
      = fragmentOfType d.declaredNames :=
    funext (fragmentOfType_congr fun _ => h.mem_declaredNames)
  have htargets : d'.declaredNames.contains = d.declaredNames.contains :=
    contains_congr fun _ => h.mem_declaredNames
  unfold Diagram.writesTo
  rw [h.filter_name hd, h.relations, htypes, htargets]

theorem notesOn (h : d'.Reorders d) (hd : d.NamesDistinct) (name : String) :
    d'.notesOn name = d.notesOn name := by
  have hfilter : ∀ es : List Entity,
      es.filter (fun e => e.name == name && !e.methods.isEmpty)
        = (es.filter (·.name == name)).filter (!·.methods.isEmpty) := by
    intro es
    rw [List.filter_filter]
    exact List.filter_congr fun e _ => Bool.and_comm ..
  unfold Diagram.notesOn
  rw [hfilter, hfilter, h.filter_name hd]

theorem parentsOf (h : d'.Reorders d) (name : String) :
    d'.parentsOf name = d.parentsOf name := by
  have hparents : d'.entityNames.contains = d.entityNames.contains :=
    contains_congr fun _ => h.mem_entityNames
  unfold Diagram.parentsOf
  rw [h.relations, hparents]

-- ============================================================== components

/-- Every name has the same component. -/
theorem get?_componentSchemas (h : d'.Reorders d) (hd : d.NamesDistinct)
    (name : String) :
    d'.componentSchemas.get? name = d.componentSchemas.get? name := by
  by_cases hname : name ∈ d.entityNames
  · rw [get?_componentSchemas_eq hname,
      get?_componentSchemas_eq (h.mem_entityNames.mpr hname), h.parentsOf,
      h.writesTo hd, h.notesOn hd]
  · have hname' : name ∉ d'.entityNames :=
      fun hmem => hname (h.mem_entityNames.mp hmem)
    rw [get?_componentSchemas_of_enum hname,
      get?_componentSchemas_of_enum hname']
    unfold lastEnum?
    rw [findLast_key_of_perm h.enums hd.enums]

end Diagram.Reorders

/-- The error schema is found under its name where nothing else is. -/
theorem get?_withErrorSchema {α : Type} (error : α) (schemas : OrderedMap α)
    (name : String) :
    (withErrorSchema error schemas).get? name
      = (schemas.get? name).or (if name = errorName then some error else none) := by
  unfold withErrorSchema
  split
  next hhas =>
    by_cases hname : name = errorName
    · obtain ⟨own, hown⟩ := Option.isSome_iff_exists.mp hhas
      rw [hname, hown]
      rfl
    · rw [if_neg hname, Option.or_none]
  next hhas =>
    rw [OrderedMap.get?_put]
    by_cases hname : name = errorName
    · have hnone : schemas.get? errorName = none := by
        rw [Bool.not_eq_true] at hhas
        exact Option.isNone_iff_eq_none.mp (Option.isSome_eq_false_iff.mp hhas)
      rw [if_pos hname, if_pos hname, hname, hnone]
      rfl
    · rw [if_neg hname, if_neg hname, Option.or_none]

namespace Document

theorem components_reorders (info : Info) {d' d : Diagram}
    (h : d'.Reorders d) (hd : d.NamesDistinct) :
    (ofDiagram info d').components.Reorders (ofDiagram info d).components := by
  refine .of_value fun name => ?_
  have hclasses : d'.classes ≠ [] ↔ d.classes ≠ [] :=
    not_congr ⟨fun hnil => (hnil ▸ h.classes).symm.eq_nil,
      fun hnil => (hnil ▸ h.classes).eq_nil⟩
  rw [components_ofDiagram, components_ofDiagram, if_congr hclasses rfl rfl]
  split
  · rw [get?_withErrorSchema, get?_withErrorSchema, h.get?_componentSchemas hd]
  · exact h.get?_componentSchemas hd name

-- =================================================================== paths

/-- What stands at a path belongs to some class. -/
theorem get?_paths_eq_none {info : Info} {d : Diagram} {path : String}
    (h : ∀ c ∈ d.classes, path ≠ collectionPath (pathSegment c.name)
      ∧ path ≠ itemPath (pathSegment c.name)) :
    (ofDiagram info d).paths.get? path = none := by
  cases hget : (ofDiagram info d).paths.get? path with
  | none => rfl
  | some item =>
      obtain ⟨c, hc, hcrud⟩ := paths_ofDiagram info d _
        (OrderedMap.mem_entries_of_get? hget)
      simp only [crudPaths, List.mem_cons, List.not_mem_nil, or_false,
        Prod.mk.injEq] at hcrud
      rcases hcrud with ⟨hpath, -⟩ | ⟨hpath, -⟩
      · exact absurd hpath (h c hc).1
      · exact absurd hpath (h c hc).2

theorem paths_reorders (info : Info) {d' d : Diagram} (h : d'.Reorders d)
    (hsegments : (d.classes.map fun c => pathSegment c.name).Nodup) :
    (ofDiagram info d').paths.Reorders (ofDiagram info d).paths := by
  have hlast : ∀ segment, d'.lastClass? segment = d.lastClass? segment := by
    intro segment
    refine findLast_key_of_perm (h.classes.map Entity.name) ?_ segment
    rwa [List.map_map]
  refine .of_value fun path => ?_
  have hserved := servesLast_ofDiagram info d
  have hserved' := servesLast_ofDiagram info d'
  by_cases hclass : ∃ c ∈ d.classes, path = collectionPath (pathSegment c.name)
      ∨ path = itemPath (pathSegment c.name)
  · obtain ⟨c, -, rfl | rfl⟩ := hclass
    · rw [hserved.collection, hserved'.collection]
      exact congrArg (Option.map _) (hlast _)
    · rw [hserved.item, hserved'.item]
      exact congrArg (Option.map _) (hlast _)
  · simp only [not_exists, not_and, not_or] at hclass
    rw [get?_paths_eq_none hclass,
      get?_paths_eq_none fun c hc => hclass c (h.classes.mem_iff.mp hc)]

end Document

/-- The order of declarations is free. Where no two classes, no two
interfaces and no two enumerations share a name, declaring them in another
order gives every component name the same schema, property by property, and
where no two classes share a segment every path the same item; keys come in
another order, and nothing else in the document changes. -/
theorem document_of_reordered_declarations (info : Info) {d' d : Diagram}
    (h : d'.Reorders d) (hd : d.NamesDistinct) :
    (Document.ofDiagram info d').components.Reorders
        (Document.ofDiagram info d).components
      ∧ ((d.classes.map fun c => pathSegment c.name).Nodup →
        (Document.ofDiagram info d').paths.Reorders
          (Document.ofDiagram info d).paths)
      ∧ (Document.ofDiagram info d').info = (Document.ofDiagram info d).info :=
  ⟨Document.components_reorders info h hd, Document.paths_reorders info h, rfl⟩

/-- An order and its items, declared the other way round. Each refers to the
other, and the keys of both maps do change their order. -/
theorem document_of_reordered_declarations_of_order_and_item :
    let order : Entity :=
      { name := "Order", attributes := [⟨"first", some "Item", .pub⟩] }
    let item : Entity :=
      { name := "Item", attributes := [⟨"state", some "State", .priv⟩] }
    let relations : List Relation :=
      [⟨"Order", "Item", .composition, "*--", none,
          some { kind := .many, raw := "*" }⟩,
        ⟨"Priced", "Item", .inheritance, "<|--", none, none⟩,
        ⟨"Item", "Order", .association, "-->", none, none⟩]
    let d : Diagram := {
      classes := [order, item], interfaces := [{ name := "Priced" }]
      enums := [⟨"State", ["open"]⟩, ⟨"Level", ["low"]⟩], relations }
    let d' : Diagram := {
      classes := [item, order], interfaces := [{ name := "Priced" }]
      enums := [⟨"Level", ["low"]⟩, ⟨"State", ["open"]⟩], relations }
    d'.Reorders d ∧ d.NamesDistinct
      ∧ (d.classes.map fun c => pathSegment c.name).Nodup
      ∧ (Document.ofDiagram {} d').components.Reorders
        (Document.ofDiagram {} d).components
      ∧ (Document.ofDiagram {} d').paths.Reorders (Document.ofDiagram {} d).paths
      ∧ (Document.ofDiagram {} d').components.keys
        = ["Level", "State", "Item", "Order", "Priced", "ApiError"]
      ∧ (Document.ofDiagram {} d).components.keys
        = ["State", "Level", "Order", "Item", "Priced", "ApiError"] := by
  intro order item relations d d'
  have hreorders : d'.Reorders d :=
    ⟨List.Perm.swap .., List.Perm.refl _, List.Perm.swap .., rfl⟩
  have hdistinct : d.NamesDistinct := ⟨by decide, by decide, by decide⟩
  have hsegments : (d.classes.map fun c => pathSegment c.name).Nodup := by
    decide +kernel
  obtain ⟨hcomponents, hpaths, -⟩ :=
    document_of_reordered_declarations {} hreorders hdistinct
  exact ⟨hreorders, hdistinct, hsegments, hcomponents, hpaths hsegments,
    by decide +kernel, by decide +kernel⟩

end ApiScaffold
