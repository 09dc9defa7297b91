/-
Inheritance in the component schemas. A class or interface with parents is
composed of references to them and its own object schema, and one without
is its own object schema. The two halves of a builder do not meet: the own
schema is a projection of writes, and inheritance relations write nothing
(`Diagram.writesTo_withoutInheritance`), while the parents are read off the
inheritance relations alone (`Diagram.parentsOf_eq`).

Which names refer to which through `allOf` is then a question about the
relations. Only a relation from a name to itself is left out, so the
references run in circles exactly if the inheritance relations between
different classes and interfaces do (`inheritance_acyclic_iff`).
-/
import ApiScaffold.Proofs.Schema.Parents
import ApiScaffold.Proofs.Schema.Projection
import Mathlib.Logic.Relation

namespace ApiScaffold

-- =================================================== statement vocabulary

/-- The names that a class or interface inherits from: the sources of the
inheritance relations to it that are classes or interfaces other than
itself, in the order of the diagram, each where it first comes. -/
def Diagram.parentsOf (d : Diagram) (name : String) : List String :=
  (((d.relations.filter fun r =>
      r.kind == .inheritance && r.target == name).map Relation.source).filter
    fun p => d.entityNames.contains p && p != name).eraseDups

/-- The diagram without its inheritance relations. -/
def Diagram.withoutInheritance (d : Diagram) : Diagram :=
  { d with relations := d.relations.filter (·.kind != .inheritance) }

/-- One of the relations makes a class or interface inherit from another. -/
def Diagram.Inherits (d : Diagram) (rs : List Relation)
    (child parent : String) : Prop :=
  ∃ r ∈ rs, r.kind = .inheritance ∧ r.target = child ∧ r.source = parent
    ∧ child ≠ parent ∧ child ∈ d.entityNames ∧ parent ∈ d.entityNames

/-- A builder has recorded a parent for a child. -/
def Builder.HasParent (b : Builder) (child parent : String) : Prop :=
  parent ∈ b.parentsOf child

/-- The pointer that an object consists of, if it is a reference. -/
def Json.pointer? (j : Json) : Option String :=
  match j.field? "$ref" with
  | some (.str pointer) => some pointer
  | _ => none

/-- The pointers that stand directly under `allOf`. -/
def Json.composedOf (j : Json) : List String :=
  match j.field? "allOf" with
  | some (.arr items) => items.filterMap Json.pointer?
  | _ => []

/-- The schema of a component refers to another directly under `allOf`. -/
def OrderedMap.Composes (m : OrderedMap Component) (child parent : String) :
    Prop :=
  ∃ c, m.get? child = some c ∧ componentRef parent ∈ c.toJson.composedOf

/-- No name leads back to itself. -/
def Acyclic (r : String → String → Prop) : Prop :=
  ∀ name, ¬ Relation.TransGen r name name

-- ============================================================ both halves

/-- Parents are the sources of the relations that give them. -/
theorem Diagram.parentsOf_eq {d : Diagram} {name : String}
    (hname : name ∈ d.entityNames) :
    (d.sourcesTo name d.relations).eraseDups = d.parentsOf name := by
  unfold Diagram.sourcesTo Diagram.parentsOf
  rw [List.filter_map, List.filter_filter]
  congr 2
  apply List.filter_congr
  intro r _
  unfold Diagram.givesParent
  rw [Bool.eq_iff_iff]
  simp only [Function.comp_apply, Bool.and_eq_true, beq_iff_eq, bne_iff_ne,
    List.contains_iff_mem]
  constructor
  · rintro ⟨⟨⟨⟨hkind, hne⟩, -⟩, hsource⟩, rfl⟩
    exact ⟨⟨hsource, Ne.symm hne⟩, hkind, rfl⟩
  · rintro ⟨⟨hsource, hne⟩, hkind, rfl⟩
    exact ⟨⟨⟨⟨hkind, Ne.symm hne⟩, hname⟩, hsource⟩, rfl⟩

/-- Inheritance relations write nothing to any schema. -/
theorem Diagram.writesTo_withoutInheritance (d : Diagram) (name : String) :
    d.withoutInheritance.writesTo name = d.writesTo name := by
  have hrelations : d.withoutInheritance.relations.filter (fun r =>
      (r.kind == .composition || r.kind == .aggregation
          || r.kind == .association)
        && r.source == name && d.declaredNames.contains r.target)
      = d.relations.filter fun r =>
      (r.kind == .composition || r.kind == .aggregation
          || r.kind == .association)
        && r.source == name && d.declaredNames.contains r.target := by
    unfold withoutInheritance
    simp only
    rw [List.filter_filter]
    apply List.filter_congr
    intro r _
    cases r.kind <;> simp
  show _ ++ (d.withoutInheritance.relations.filter _).map _ = _
  rw [show d.withoutInheritance.declaredNames = d.declaredNames from rfl,
    hrelations]
  rfl

theorem Diagram.parentsOf_withoutInheritance (d : Diagram) (name : String) :
    d.withoutInheritance.parentsOf name = [] := by
  have hnone : d.withoutInheritance.relations.filter
      (fun r => r.kind == .inheritance && r.target == name) = [] := by
    rw [List.filter_eq_nil_iff]
    intro r hr
    have hkind : r.kind ≠ .inheritance := by
      simpa using (List.mem_filter.mp hr).2
    simp [hkind]
  unfold parentsOf
  rw [hnone]
  rfl

/-- The component of a class or interface, from its parents and its own
object schema. -/
theorem Diagram.get?_componentSchemas_eq {d : Diagram} {name : String}
    (hname : name ∈ d.entityNames) :
    d.componentSchemas.get? name
      = some (if d.parentsOf name = [] then
          .object ((Draft.takeAll {} (d.writesTo name)).noteAll
            (d.notesOn name))
        else .inheriting (d.parentsOf name)
          ((Draft.takeAll {} (d.writesTo name)).noteAll (d.notesOn name))) := by
  rw [Diagram.get?_componentSchemas hname, Builder.componentOf_eq,
    Builder.draftOf_load_new hname, Builder.parentsOf_load_new,
    Diagram.parentsOf_eq hname]

/-- Inheritance becomes composition and nothing else: with parents a class
or interface is composed of references to them, in order, and its own
object schema, and without parents it is that schema. The own schema is
the one that the diagram gives without its inheritance relations. -/
theorem inheritance_becomes_composition (d : Diagram) (name : String)
    (hname : name ∈ d.entityNames) :
    ((Builder.new d).step .build).2 = .ok (.components d.componentSchemas)
      ∧ ∃ c own, d.componentSchemas.get? name = some c
        ∧ d.withoutInheritance.componentSchemas.get? name = some (.object own)
        ∧ own.toJson.field? "allOf" = none
        ∧ c = (if d.parentsOf name = [] then .object own
            else .inheriting (d.parentsOf name) own)
        ∧ c.toJson = if d.parentsOf name = [] then own.toJson
            else .obj [("allOf", .arr
              ((d.parentsOf name).map
                  (fun p => .obj [("$ref", .str ("#/components/schemas/" ++ p))])
                ++ [own.toJson]))] := by
  refine ⟨Builder.step_build_new d, _,
    (Draft.takeAll {} (d.writesTo name)).noteAll (d.notesOn name),
    Diagram.get?_componentSchemas_eq hname, ?_,
    Draft.field?_toJson (by decide), rfl, ?_⟩
  · have hwithout : name ∈ d.withoutInheritance.entityNames := hname
    rw [Diagram.get?_componentSchemas_eq hwithout,
      Diagram.parentsOf_withoutInheritance, if_pos rfl,
      Diagram.writesTo_withoutInheritance]
    rfl
  · split
    · rfl
    · rfl

/-- A class with two parents, one of them drawn twice, whose inheritance
from an enumeration and from itself does not count. -/
theorem inheritance_becomes_composition_of_two_parents :
    let inherits := fun parent child : String =>
      ({ source := parent, target := child, kind := .inheritance } : Relation)
    let d : Diagram := {
      classes := [{ name := "Base" }, { name := "Child" }]
      interfaces := [{ name := "Api" }]
      enums := [{ name := "Level" }]
      relations := [inherits "Level" "Child", inherits "Base" "Child",
        inherits "Child" "Child", inherits "Api" "Child",
        inherits "Base" "Child"] }
    "Child" ∈ d.entityNames
      ∧ ∃ c own, d.componentSchemas.get? "Child" = some c
        ∧ d.withoutInheritance.componentSchemas.get? "Child"
          = some (.object own)
        ∧ c.toJson = .obj [("allOf", .arr
          [.obj [("$ref", .str "#/components/schemas/Base")],
            .obj [("$ref", .str "#/components/schemas/Api")], own.toJson])] := by
  intro inherits d
  have hname : "Child" ∈ d.entityNames := by decide
  obtain ⟨-, c, own, hget, hown, -, -, hjson⟩ :=
    inheritance_becomes_composition d "Child" hname
  have hparents : d.parentsOf "Child" = ["Base", "Api"] := by decide +kernel
  rw [hparents] at hjson
  exact ⟨hname, c, own, hget, hown, hjson⟩

-- ================================================================= cycles

/-- The parents recorded are those that the relations give. -/
theorem Builder.hasParent_relate_new (d : Diagram) (rs : List Relation) :
    (rs.foldl relate (new d)).HasParent = d.Inherits rs := by
  funext child parent
  apply propext
  unfold HasParent Diagram.Inherits
  rw [parentsOf_relate_new, List.mem_eraseDups]
  unfold Diagram.sourcesTo
  simp only [List.mem_map, List.mem_filter, Bool.and_eq_true, beq_iff_eq,
    Diagram.givesParent_iff]
  constructor
  · rintro ⟨r, ⟨hr, ⟨hkind, hne, htarget, hsource⟩, rfl⟩, rfl⟩
    exact ⟨r, hr, hkind, rfl, rfl, hne, htarget, hsource⟩
  · rintro ⟨r, hr, hkind, rfl, rfl, hne, htarget, hsource⟩
    exact ⟨r, ⟨hr, ⟨hkind, hne, htarget, hsource⟩, rfl⟩, rfl⟩

theorem Builder.hasParent_load_new (d : Diagram) :
    (new d).load.HasParent = d.Inherits d.relations := by
  rw [← hasParent_relate_new]
  funext child parent
  unfold HasParent
  rw [parentsOf_load_new, parentsOf_relate_new]

/-- A component is composed of its parents. -/
theorem Component.mem_composedOf {c : Component} {parent : String} :
    componentRef parent ∈ c.toJson.composedOf
      ↔ ∃ ps own, c = .inheriting ps own ∧ parent ∈ ps := by
  cases c with
  | enumeration values =>
      constructor
      · intro h
        cases h
      · rintro ⟨ps, own, h, -⟩
        cases h
  | object own =>
      have hnone : own.toJson.field? "allOf" = none :=
        Draft.field?_toJson (by decide)
      constructor
      · intro h
        unfold Component.toJson Json.composedOf at h
        rw [hnone] at h
        cases h
      · rintro ⟨ps, own, h, -⟩
        cases h
  | inheriting ps own =>
      have hown : own.toJson.pointer? = none := by
        unfold Json.pointer?
        rw [Draft.field?_toJson (by decide)]
      have hrefs : (Component.inheriting ps own).toJson.composedOf
          = ps.map componentRef := by
        show (ps.map _ ++ [own.toJson]).filterMap Json.pointer? = _
        rw [List.filterMap_append, List.filterMap_cons, hown,
          List.filterMap_map]
        show ps.filterMap (some ∘ componentRef) ++ [] = _
        rw [List.append_nil, List.filterMap_eq_map]
      rw [hrefs, List.mem_map]
      constructor
      · rintro ⟨p, hp, heq⟩
        exact ⟨ps, own, rfl, componentRef_inj.mp heq ▸ hp⟩
      · rintro ⟨ps', own', heq, hp⟩
        injection heq with hps
        exact ⟨parent, hps ▸ hp, rfl⟩

/-- Components are composed of recorded parents only. -/
theorem Builder.hasParent_of_composes {b : Builder} {child parent : String}
    (h : b.components.Composes child parent) : b.HasParent child parent := by
  obtain ⟨c, hget, href⟩ := h
  obtain ⟨ps, own, rfl, hp⟩ := Component.mem_composedOf.mp href
  rcases mem_components (OrderedMap.mem_entries_of_get? hget) with
    ⟨values, hval⟩ | ⟨own', -, hval⟩
  · cases hval
  · simp only at hval
    rw [componentOf_eq] at hval
    split at hval
    · cases hval
    · injection hval with hps
      show parent ∈ b.parentsOf child
      exact hps ▸ hp

/-- Once a diagram is loaded, components are composed of all their
parents. -/
theorem Builder.composes_load_new (d : Diagram) :
    d.componentSchemas.Composes = d.Inherits d.relations := by
  rw [← hasParent_load_new]
  funext child parent
  apply propext
  constructor
  · exact hasParent_of_composes
  · intro h
    have hchild : child ∈ d.entityNames := by
      rw [hasParent_load_new] at h
      obtain ⟨r, -, -, -, -, -, hmem, -⟩ := h
      exact hmem
    have hne : (new d).load.parentsOf child ≠ [] := List.ne_nil_of_mem h
    refine ⟨_, Diagram.get?_componentSchemas hchild, ?_⟩
    rw [componentOf_eq, if_neg hne]
    exact Component.mem_composedOf.mpr ⟨_, _, rfl, h⟩

/-- The parents that a builder records run in no circle exactly if the
inheritance relations applied to it do not, and then neither do the
references under `allOf` in what it produces. For the components of a whole
diagram the converse holds too, since all its classes and interfaces are
among them. -/
theorem inheritance_acyclic_iff (d : Diagram) :
    (∀ rs : List Relation, ∃ m,
      ((rs.foldl Builder.relate (Builder.new d)).step .finish).2
          = .ok (.components m)
        ∧ (Acyclic (rs.foldl Builder.relate (Builder.new d)).HasParent
          ↔ Acyclic (d.Inherits rs))
        ∧ (Acyclic (d.Inherits rs) → Acyclic m.Composes))
      ∧ ((Builder.new d).step .build).2 = .ok (.components d.componentSchemas)
      ∧ (Acyclic d.componentSchemas.Composes
          ↔ Acyclic (d.Inherits d.relations)) := by
  refine ⟨fun rs => ?_, Builder.step_build_new d, ?_⟩
  · have hfinished := Builder.finished_foldl_relate rs (Builder.new d)
    refine ⟨_, Builder.finish_of_unfinished hfinished, ?_, ?_⟩
    · rw [Builder.hasParent_relate_new]
    · intro hacyclic name hcycle
      have hsub : (rs.foldl Builder.relate
          (Builder.new d)).components.Composes ≤ d.Inherits rs := by
        intro child parent h
        rw [← Builder.hasParent_relate_new]
        exact Builder.hasParent_of_composes h
      exact hacyclic name (Relation.TransGen.mono hsub _ _ hcycle)
  · rw [Builder.composes_load_new]

/-- Two classes that inherit from each other are composed of each other. -/
theorem inheritance_runs_in_circle :
    let d : Diagram := {
      classes := [{ name := "A" }, { name := "B" }]
      relations := [
        { source := "A", target := "B", kind := .inheritance, symbol := "<|--" },
        { source := "B", target := "A", kind := .inheritance, symbol := "<|--" }] }
    ¬ Acyclic (d.relations.foldl Builder.relate (Builder.new d)).HasParent
      ∧ ¬ Acyclic d.componentSchemas.Composes := by
  intro d
  have hcircle : Relation.TransGen (d.Inherits d.relations) "A" "A" := by
    have hfirst : d.Inherits d.relations "A" "B" :=
      ⟨_, List.mem_cons_of_mem _ (List.mem_cons_self ..), rfl, rfl, rfl,
        by decide, by decide, by decide⟩
    have hback : d.Inherits d.relations "B" "A" :=
      ⟨_, List.mem_cons_self .., rfl, rfl, rfl, by decide, by decide,
        by decide⟩
    exact .tail (.single hfirst) hback
  constructor
  · intro hacyclic
    rw [Builder.hasParent_relate_new] at hacyclic
    exact hacyclic "A" hcircle
  · intro hacyclic
    rw [Builder.composes_load_new] at hacyclic
    exact hacyclic "A" hcircle

end ApiScaffold
