/-
Parents in closed form. Only inheritance relations touch the parents that a
builder has recorded, one child each, and what one of them adds depends on
the diagram and on the parents of that child alone. So the parents of a
name after any list of relations are the sources of those that give it one
(`Diagram.sourcesTo`), each where it first came (`parentsOf_foldl_relate`).

The order comes out of `List.eraseDups`: appending a source to a list
without repetitions, unless it is there, is erasing the repetitions of the
longer list.
-/
import ApiScaffold.Proofs.Schema.Building
import Mathlib.Data.List.Basic
import Mathlib.Data.List.Induction

namespace ApiScaffold

/-- The parents that relations give to a name, in order, as often as they
do. -/
def Diagram.sourcesTo (d : Diagram) (name : String) (rs : List Relation) :
    List String :=
  (rs.filter fun r => d.givesParent r && r.target == name).map Relation.source

/-- The parents of a name come relation by relation. -/
theorem Diagram.sourcesTo_cons (d : Diagram) (name : String) (r : Relation)
    (rs : List Relation) :
    d.sourcesTo name (r :: rs)
      = (if d.givesParent r ∧ r.target = name then [r.source] else [])
        ++ d.sourcesTo name rs := by
  unfold sourcesTo
  by_cases h : d.givesParent r ∧ r.target = name
  · rw [if_pos h, List.filter_cons_of_pos (by simpa using h)]
    rfl
  · rw [if_neg h, List.filter_cons_of_neg (by simpa using h)]
    rfl

/-- A relation gives a parent if it is an inheritance between two different
known entities. -/
theorem Diagram.givesParent_iff {d : Diagram} {r : Relation} :
    d.givesParent r = true ↔ r.kind = .inheritance ∧ r.target ≠ r.source
      ∧ r.target ∈ d.entityNames ∧ r.source ∈ d.entityNames := by
  unfold givesParent
  simp only [Bool.and_eq_true, beq_iff_eq, bne_iff_ne, List.contains_iff_mem,
    and_assoc]

/-- One more name joins those without repetitions unless it is there. -/
theorem eraseDups_append_one (xs : List String) (x : String) :
    (xs ++ [x]).eraseDups
      = if xs.eraseDups.contains x then xs.eraseDups
        else xs.eraseDups ++ [x] := by
  rw [List.eraseDups_append]
  unfold List.removeAll
  by_cases hx : x ∈ xs
  · have hmem : x ∈ xs.eraseDups := List.mem_eraseDups.mpr hx
    simp [hx, hmem]
  · have hmem : x ∉ xs.eraseDups := fun h => hx (List.mem_eraseDups.mp h)
    simp [hx, hmem, List.eraseDups_cons]

/-- Names without repetitions have none to erase. -/
theorem eraseDups_eraseDups (xs : List String) :
    xs.eraseDups.eraseDups = xs.eraseDups := by
  induction xs using List.reverseRecOn with
  | nil => rfl
  | append_singleton xs x ih =>
      rw [eraseDups_append_one]
      split
      next => exact ih
      next hnew => rw [eraseDups_append_one, ih, if_neg hnew]

/-- It does not matter whether repetitions are erased before or after some
names are taken out. -/
theorem eraseDups_filter (p : String → Bool) (xs : List String) :
    (xs.filter p).eraseDups = xs.eraseDups.filter p := by
  induction xs using List.reverseRecOn with
  | nil => rfl
  | append_singleton xs x ih =>
      rw [List.filter_append, eraseDups_append_one]
      by_cases hx : p x = true
      · rw [List.filter_cons_of_pos hx, List.filter_nil, eraseDups_append_one,
          ih]
        by_cases hmem : x ∈ xs.eraseDups
        · simp [hmem, hx]
        · simp [hmem, hx]
      · rw [List.filter_cons_of_neg hx, List.filter_nil, List.append_nil, ih]
        split
        · rfl
        · simp [hx]

namespace Builder

/-- The parents recorded for a child. -/
def parentsOf (b : Builder) (child : String) : List String :=
  (b.parents.get? child).getD []

@[simp] theorem parentsOf_writeEntity (b : Builder) (e : Entity)
    (child : String) : (b.writeEntity e).parentsOf child = b.parentsOf child :=
  rfl

/-- A parent joins behind the others, once. -/
theorem parentsOf_addParent (b : Builder) (child parent name : String) :
    (b.addParent child parent).parentsOf name
      = if name = child then
          if (b.parentsOf child).contains parent then b.parentsOf child
          else b.parentsOf child ++ [parent]
        else b.parentsOf name := by
  unfold addParent parentsOf
  simp only
  rw [OrderedMap.get?_put]
  by_cases h : name = child
  · rw [if_pos h, if_pos h]
    rfl
  · rw [if_neg h, if_neg h]

/-- A relation leaves the parents of a name as they are or appends its
source, once. -/
theorem parentsOf_relate (b : Builder) (r : Relation) (name : String) :
    (b.relate r).parentsOf name
      = if b.diagram.givesParent r ∧ r.target = name then
          if (b.parentsOf name).contains r.source then b.parentsOf name
          else b.parentsOf name ++ [r.source]
        else b.parentsOf name := by
  unfold relate
  by_cases hparent : b.diagram.givesParent r = true
  · rw [if_pos hparent, parentsOf_addParent]
    by_cases hname : r.target = name
    · subst hname
      simp only [hparent, true_and, if_true]
    · have hboth : ¬ (b.diagram.givesParent r = true ∧ r.target = name) :=
        fun h => hname h.2
      rw [if_neg hboth, if_neg (Ne.symm hname)]
  · have hboth : ¬ (b.diagram.givesParent r = true ∧ r.target = name) :=
      fun h => hparent h.1
    rw [if_neg hboth, if_neg hparent]
    split <;> rfl

/-- Writing entities adds no parent. -/
theorem parentsOf_foldl_writeEntity (es : List Entity) (b : Builder)
    (name : String) :
    (es.foldl writeEntity b).parentsOf name = b.parentsOf name := by
  induction es generalizing b with
  | nil => rfl
  | cons e es ih => rw [List.foldl_cons, ih, parentsOf_writeEntity]

/-- Relations extend the parents of a name by their sources, each where it
first comes. -/
theorem parentsOf_foldl_relate (name : String) :
    ∀ (rs : List Relation) (b : Builder) (known : List String),
      b.parentsOf name = known.eraseDups →
      (rs.foldl relate b).parentsOf name
        = (known ++ b.diagram.sourcesTo name rs).eraseDups := by
  intro rs
  induction rs with
  | nil =>
      intro b known hknown
      show b.parentsOf name = (known ++ []).eraseDups
      rw [List.append_nil, hknown]
  | cons r rs ih =>
      intro b known hknown
      have hstep := b.parentsOf_relate r name
      rw [hknown] at hstep
      rw [List.foldl_cons, Diagram.sourcesTo_cons, ← List.append_assoc,
        ← b.diagram_relate r]
      apply ih
      rw [hstep, diagram_relate]
      by_cases h : b.diagram.givesParent r ∧ r.target = name
      · rw [if_pos h, if_pos h, eraseDups_append_one]
      · rw [if_neg h, if_neg h, List.append_nil]

/-- The parents that a list of relations records. -/
theorem parentsOf_relate_new (d : Diagram) (rs : List Relation)
    (name : String) :
    (rs.foldl relate (new d)).parentsOf name
      = (d.sourcesTo name rs).eraseDups :=
  parentsOf_foldl_relate name rs (new d) [] rfl

/-- Loading writes the entities and then applies the relations. -/
theorem load_new (d : Diagram) :
    (new d).load
      = d.relations.foldl relate (d.entities.foldl writeEntity (new d)) := by
  unfold load
  simp only [diagram_foldl_writeEntity]
  rfl

/-- The parents once a diagram is loaded. -/
theorem parentsOf_load_new (d : Diagram) (name : String) :
    (new d).load.parentsOf name
      = (d.sourcesTo name d.relations).eraseDups := by
  have hnone : (d.entities.foldl writeEntity (new d)).parentsOf name
      = ([] : List String).eraseDups := by
    rw [parentsOf_foldl_writeEntity]
    rfl
  rw [load_new, parentsOf_foldl_relate name _ _ [] hnone,
    diagram_foldl_writeEntity]
  rfl

/-- With parents a component inherits from all of them. -/
theorem componentOf_eq (b : Builder) (name : String) (own : Draft) :
    b.componentOf name own
      = if b.parentsOf name = [] then .object own
        else .inheriting (b.parentsOf name) own := by
  unfold componentOf parentsOf
  cases b.parents.get? name with
  | none => rfl
  | some ps => cases ps <;> rfl

end Builder

end ApiScaffold
