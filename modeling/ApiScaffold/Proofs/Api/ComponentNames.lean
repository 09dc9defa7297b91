/-
Which components a document has, and in which order. Enumerations come
first, then the classes and interfaces that share no name with one, each
name where it is first declared. A class takes the place of an enumeration
of its name, and of enumerations with one name the last gives the values.

The order is that of three maps put over each other. The drafts are made by
the entities alone: a relation writes only into the draft of a class or
interface, and those are all there before the first relation is applied
(`keys_relate`). The error schema comes last, with the first class.
-/
import ApiScaffold.Proofs.Api.Closure
import ApiScaffold.Proofs.Schema.Inheritance

namespace ApiScaffold

-- =================================================== statement vocabulary

/-- The names of the enumerations and then those of the other classes and
interfaces, each where it first comes. -/
def Diagram.componentNames (d : Diagram) : List String :=
  (d.enums.map Enumeration.name).eraseDups
    ++ (d.entityNames.filter fun name =>
        !(d.enums.map Enumeration.name).contains name).eraseDups

/-- The enumeration declared last under a name. -/
def Diagram.lastEnum? (d : Diagram) (name : String) : Option Enumeration :=
  d.enums.reverse.find? (·.name == name)

-- ================================================================ drafts

namespace Builder

/-- Entities make the drafts, each where its name first comes. -/
theorem keys_foldl_writeEntity_new (d : Diagram) (es : List Entity) :
    (es.foldl writeEntity (new d)).drafts.keys
      = (es.map Entity.name).eraseDups := by
  induction es using List.reverseRecOn with
  | nil => rfl
  | append_singleton es e ih =>
      rw [List.foldl_concat, List.map_append, List.map_singleton,
        eraseDups_append_one, ← ih]
      show (OrderedMap.put _ _ _).keys = _
      rw [OrderedMap.keys_put]
      simp only [List.contains_iff_mem]

/-- A relation makes no draft once all classes and interfaces have
theirs. -/
theorem keys_relate {b : Builder}
    (h : ∀ name ∈ b.diagram.entityNames, name ∈ b.drafts.keys) (r : Relation) :
    (b.relate r).drafts.keys = b.drafts.keys := by
  unfold relate
  split
  · rfl
  · split
    next hprop =>
      unfold Diagram.givesProperty at hprop
      simp only [Bool.and_eq_true, List.contains_iff_mem] at hprop
      show (OrderedMap.put _ _ _).keys = _
      rw [OrderedMap.keys_put, if_pos (h _ hprop.1.2)]
    · rfl

theorem keys_foldl_relate (rs : List Relation) {b : Builder}
    (h : ∀ name ∈ b.diagram.entityNames, name ∈ b.drafts.keys) :
    (rs.foldl relate b).drafts.keys = b.drafts.keys := by
  induction rs generalizing b with
  | nil => rfl
  | cons r rs ih =>
      have hkeys := keys_relate h r
      rw [List.foldl_cons, ih, hkeys]
      rw [diagram_relate, hkeys]
      exact h

/-- A loaded diagram has one draft for each of its classes and
interfaces. -/
theorem keys_load_new (d : Diagram) :
    (new d).load.drafts.keys = d.entityNames.eraseDups := by
  have hkeys := keys_foldl_writeEntity_new d d.entities
  rw [load_new, keys_foldl_relate, hkeys]
  · rfl
  · intro name hname
    rw [diagram_foldl_writeEntity] at hname
    rw [hkeys, List.mem_eraseDups]
    exact hname

end Builder

-- ============================================================ components

namespace Diagram

variable {d : Diagram} {name : String}

/-- Drafts are put over the enumerations: a name of both keeps the place of
the enumeration, and new names come behind. -/
theorem keys_componentSchemas (d : Diagram) :
    d.componentSchemas.keys = d.componentNames := by
  have henums : (OrderedMap.ofList (d.enums.map fun e =>
      (e.name, Component.enumeration e.values))).keys
        = (d.enums.map Enumeration.name).eraseDups := by
    rw [OrderedMap.keys_ofList, List.map_map]
    rfl
  have hdrafts : ((Builder.new d).load.drafts.entries.map fun e =>
      (e.1, (Builder.new d).load.componentOf e.1 e.2)).map Prod.fst
        = d.entityNames.eraseDups := by
    rw [← Builder.keys_load_new, List.map_map]
    rfl
  unfold componentSchemas Builder.components
  simp only [Builder.diagram_load]
  show (OrderedMap.putAll (OrderedMap.ofList (d.enums.map fun e =>
    (e.name, Component.enumeration e.values))) _).keys = _
  rw [OrderedMap.keys_putAll, henums, hdrafts]
  unfold componentNames List.removeAll
  rw [eraseDups_filter, eraseDups_eraseDups, eraseDups_filter]
  congr 2
  funext name
  simp

/-- A name of enumerations alone has the values of the last. -/
theorem get?_componentSchemas_of_enum (h : name ∉ d.entityNames) :
    d.componentSchemas.get? name
      = (d.lastEnum? name).map fun e => .enumeration e.values := by
  have hnone : ((Builder.new d).load.drafts.entries.map fun e =>
      (e.1, (Builder.new d).load.componentOf e.1 e.2)).reverse.lookup name
        = none := by
    rw [List.lookup_eq_none_iff]
    intro e he
    rw [List.mem_reverse] at he
    obtain ⟨e', he', rfl⟩ := List.mem_map.mp he
    refine bne_iff_ne.mpr fun heq => h ?_
    rw [← List.mem_eraseDups, ← Builder.keys_load_new, heq]
    exact List.mem_map_of_mem he'
  unfold componentSchemas Builder.components lastEnum?
  simp only
  rw [OrderedMap.get?_putAll, hnone, Option.none_or, OrderedMap.get?_ofList,
    ← List.map_reverse, Builder.diagram_load]
  exact lookup_map_pair Enumeration.name
    (fun e => Component.enumeration e.values) name d.enums.reverse

theorem exists_lastEnum (h : name ∈ d.enums.map Enumeration.name) :
    ∃ e, d.lastEnum? name = some e := by
  obtain ⟨e, he, rfl⟩ := List.mem_map.mp h
  refine Option.isSome_iff_exists.mp ?_
  unfold lastEnum?
  rw [List.find?_isSome]
  exact ⟨e, List.mem_reverse.mpr he, beq_self_eq_true _⟩

/-- Every class finds its component, so the error schema is asked for as
soon as there is a class. -/
theorem any_has_componentSchemas (d : Diagram) :
    (d.classes.map Entity.name).any d.componentSchemas.has = true
      ↔ d.classes ≠ [] := by
  rw [List.any_eq_true]
  constructor
  · rintro ⟨name, hname, -⟩ hnil
    rw [hnil] at hname
    cases hname
  · intro hne
    obtain ⟨c, hc⟩ := List.exists_mem_of_ne_nil _ hne
    have hname : c.name ∈ d.classes.map Entity.name := List.mem_map_of_mem hc
    refine ⟨c.name, hname, OrderedMap.has_iff.mpr ?_⟩
    exact Builder.mem_keys_componentSchemas_of_class hname

end Diagram

/-- The schema of a component with an own object schema is that schema, or
composed. -/
theorem Component.field?_toJson_of_own {c : Component} {own : Draft}
    (h : c.own? = some own) :
    c.toJson.field? "type" = some (.str "object")
      ∨ ∃ items, c.toJson.field? "allOf" = some (.arr items) := by
  cases c with
  | enumeration values => cases h
  | object own' => exact Or.inl rfl
  | inheriting parents own' => exact Or.inr ⟨_, rfl⟩

namespace Document

/-- The components of the document of a diagram: its schemas, and the error
schema where there are classes. -/
theorem components_ofDiagram (info : Info) (d : Diagram) :
    (ofDiagram info d).components
      = if d.classes ≠ [] then
          withErrorSchema (.object errorSchema) d.componentSchemas
        else d.componentSchemas := by
  show (resourcePaths _ _ _).2 = _
  rw [resourcePaths_components]
  exact if_congr d.any_has_componentSchemas rfl rfl

end Document

/-- The components that a builder produces for a diagram are its declared
names, enumerations first and each name once. A name of enumerations alone
lists the values of the last of them, and a class or interface has an object
schema or is composed, whatever else has its name. The document of the
diagram has the same components, and behind them the error schema exactly if
there is a class and no component has that name. -/
theorem components_are_declared_names (info : Info) (d : Diagram) :
    ((Builder.new d).step .build).2 = .ok (.components d.componentSchemas)
      ∧ d.componentSchemas.keys = d.componentNames
      ∧ (∀ name ∈ d.enums.map Enumeration.name, name ∉ d.entityNames →
        ∃ e c, d.lastEnum? name = some e
          ∧ d.componentSchemas.get? name = some c
          ∧ c.toJson
            = .obj [("type", .str "string"), ("enum", Json.strings e.values)])
      ∧ (∀ name ∈ d.entityNames,
        ∃ c, d.componentSchemas.get? name = some c
          ∧ (c.toJson.field? "type" = some (.str "object")
            ∨ ∃ items, c.toJson.field? "allOf" = some (.arr items)))
      ∧ (Document.ofDiagram info d).components.entries
        = d.componentSchemas.entries
          ++ if d.classes ≠ [] ∧ "ApiError" ∉ d.componentNames
            then [("ApiError", .object errorSchema)] else [] := by
  refine ⟨Builder.step_build_new d, d.keys_componentSchemas,
    fun name henum hentity => ?_, fun name hname => ?_, ?_⟩
  · obtain ⟨e, he⟩ := Diagram.exists_lastEnum henum
    refine ⟨e, .enumeration e.values, he, ?_, rfl⟩
    rw [Diagram.get?_componentSchemas_of_enum hentity, he]
    rfl
  · exact ⟨_, Diagram.get?_componentSchemas hname,
      Component.field?_toJson_of_own (Builder.own?_componentOf _ _ _)⟩
  · show (resourcePaths _ _ _).2.entries = _
    rw [resourcePaths_components, ← d.keys_componentSchemas]
    by_cases hclass : d.classes ≠ []
    · rw [if_pos (d.any_has_componentSchemas.mpr hclass), entries_withErrorSchema]
      by_cases herror : errorName ∈ d.componentSchemas.keys
      · rw [if_pos herror, if_neg fun h => h.2 herror]
      · rw [if_neg herror, if_pos ⟨hclass, herror⟩]
        rfl
    · rw [if_neg fun h => hclass (d.any_has_componentSchemas.mp h),
        if_neg fun h => hclass h.1, List.append_nil]

/-- Three enumerations, two of them with one name and one with the name of a
class, which is declared twice. -/
theorem components_are_declared_names_of_clashes :
    let d : Diagram := {
      classes := [{ name := "C" }, { name := "B" }, { name := "C" }]
      interfaces := [{ name := "I" }]
      enums := [⟨"A", ["x"]⟩, ⟨"B", ["y"]⟩, ⟨"A", ["z"]⟩] }
    "A" ∈ d.enums.map Enumeration.name ∧ "A" ∉ d.entityNames
      ∧ "B" ∈ d.entityNames
      ∧ (Document.ofDiagram {} d).components.keys = ["A", "B", "C", "I", "ApiError"]
      ∧ (∃ c, d.componentSchemas.get? "A" = some c
        ∧ c.toJson = .obj [("type", .str "string"), ("enum", .arr [.str "z"])])
      ∧ ∃ c, d.componentSchemas.get? "B" = some c
        ∧ (c.toJson.field? "type" = some (.str "object")
          ∨ ∃ items, c.toJson.field? "allOf" = some (.arr items)) := by
  intro d
  have henum : "A" ∈ d.enums.map Enumeration.name := by decide
  have hentity : "A" ∉ d.entityNames := by decide
  have hclass : "B" ∈ d.entityNames := by decide
  obtain ⟨-, hkeys, henums, hentities, hdocument⟩ :=
    components_are_declared_names {} d
  refine ⟨henum, hentity, hclass, ?_, ?_, hentities "B" hclass⟩
  · unfold OrderedMap.keys at hkeys ⊢
    rw [hdocument, List.map_append, hkeys]
    decide +kernel
  · obtain ⟨e, c, he, hget, hjson⟩ := henums "A" henum hentity
    have hlast : d.lastEnum? "A" = some ⟨"A", ["z"]⟩ := by decide
    rw [hlast] at he
    injection he with he
    subst he
    exact ⟨c, hget, hjson⟩

end ApiScaffold
