/-
Component schemas refer to declared names only. Three places of a
diagram become references: the type of an attribute, the target of a
relation and the source of an inheritance. Each is compared with the
names of the diagram before it does, so the invariant `Builder.Closed`
holds of a fresh builder and is kept by writing an entity and by applying
a relation; a loaded builder has it by induction over both lists.

The names compared with are those of the diagram and never those of the
drafts made so far, which is why no order of steps can break it.
-/
import ApiScaffold.Proofs.Api.Referring
import ApiScaffold.Proofs.Schema.Building

namespace ApiScaffold

/-- A pointer at a component with one of the names. -/
def PointsInto (names : List String) (pointer : String) : Prop :=
  ∃ name ∈ names, pointer = componentRef name

/-- What points into some names points into more of them. -/
theorem PointsInto.mono {names more : List String}
    (h : ∀ name ∈ names, name ∈ more) :
    ∀ pointer, PointsInto names pointer → PointsInto more pointer := by
  rintro pointer ⟨name, hname, rfl⟩
  exact ⟨name, h name hname, rfl⟩

-- ================================================================== types

/-- Primitive types hold no pointer. -/
theorem primitive?_refersWithin {P : String → Prop} {token : String}
    {f : Fragment} (h : primitive? token = some f) : f.RefersWithin P := by
  have htable : ∀ e ∈ primitiveTypes, e.2.RefersWithin P := by
    simp [primitiveTypes, Fragment.RefersWithin]
  exact htable (lowerText token, f) (mem_of_lookup h)

/-- A name that is resolved points to a declared one, if anywhere. -/
theorem resolveName_refersWithin (names : List String) (token : String) :
    (resolveName names token).RefersWithin (PointsInto names) := by
  unfold resolveName
  split
  next f hf => exact primitive?_refersWithin hf
  next =>
    split
    next hmem => exact ⟨token, by simpa using hmem, rfl⟩
    next => trivial

/-- A type refers to declared names only. -/
theorem fragmentOfType_refersWithin (names : List String)
    (type : Option String) :
    (fragmentOfType names type).RefersWithin (PointsInto names) := by
  unfold fragmentOfType
  split
  next => trivial
  next raw =>
    split
    next => trivial
    next =>
      dsimp only
      split
      next f hf => exact primitive?_refersWithin hf
      next =>
        split
        next hmem => exact ⟨_, by simpa using hmem, rfl⟩
        next =>
          split
          next item _ => exact resolveName_refersWithin names _
          next => trivial

-- ================================================================= drafts

variable {P : String → Prop}

/-- A draft refers where the schemas of its writes do. -/
theorem Draft.takeAll_refersWithin {ws : List Write} {d : Draft}
    (hd : d.RefersWithin P) (hws : ∀ w ∈ ws, w.schema.RefersWithin P) :
    (d.takeAll ws).RefersWithin P := by
  induction ws generalizing d with
  | nil => exact hd
  | cons w ws ih =>
      have hw := hws w (List.mem_cons_self ..)
      refine ih (fun e he => ?_) fun v hv => hws v (List.mem_cons_of_mem _ hv)
      rw [Draft.properties_take] at he
      rcases OrderedMap.mem_entries_put he with rfl | he
      · exact hw
      · exact hd e he

/-- Notes refer to nothing. -/
theorem Draft.noteAll_refersWithin {lines : List String} {d : Draft}
    (hd : d.RefersWithin P) : (d.noteAll lines).RefersWithin P := by
  induction lines generalizing d with
  | nil => exact hd
  | cons line lines ih => exact ih (d := d.describe line) hd

/-- What a declaration writes refers to declared names. -/
theorem Diagram.writesOf_refersWithin (d : Diagram) (e : Entity) :
    ∀ w ∈ d.writesOf e, w.schema.RefersWithin (PointsInto d.declaredNames) := by
  intro w hw
  obtain ⟨a, -, rfl⟩ := List.mem_map.mp hw
  exact fragmentOfType_refersWithin _ _

/-- What a relation writes refers to declared names. -/
theorem Diagram.writesBy_refersWithin (d : Diagram) (r : Relation) :
    ∀ w ∈ d.writesBy r, w.schema.RefersWithin (PointsInto d.declaredNames) := by
  intro w hw
  unfold Diagram.writesBy at hw
  split at hw
  next hprop =>
    rw [List.mem_singleton.mp hw]
    unfold Diagram.givesProperty at hprop
    simp only [Bool.and_eq_true, List.contains_iff_mem] at hprop
    have htarget : PointsInto d.declaredNames (componentRef r.target) :=
      ⟨r.target, hprop.2, rfl⟩
    unfold relationSchema
    simp only
    split <;> exact htarget
  next => cases hw

-- =============================================================== builders

namespace Builder

/-- Every pointer of a draft and every parent recorded is a declared
name. -/
structure Closed (b : Builder) : Prop where
  drafts : ∀ e ∈ b.drafts.entries,
    e.2.RefersWithin (PointsInto b.diagram.declaredNames)
  parents : ∀ e ∈ b.parents.entries, ∀ p ∈ e.2, p ∈ b.diagram.declaredNames

/-- A new builder has nothing that could refer. -/
theorem closed_new (d : Diagram) : (new d).Closed where
  drafts := fun _ he => by cases he
  parents := fun _ he => by cases he

/-- The draft under a name, a blank one included, is in order. -/
theorem Closed.draftOf {b : Builder} (h : b.Closed) (name : String) :
    (b.draftOf name).RefersWithin (PointsInto b.diagram.declaredNames) := by
  unfold Builder.draftOf
  cases hget : b.drafts.get? name with
  | none => exact fun e he => by cases he
  | some d => exact h.drafts _ (OrderedMap.mem_entries_of_get? hget)

/-- Updating a draft by something that keeps it in order. -/
theorem Closed.updateDraft {b : Builder} (h : b.Closed) {name : String}
    {f : Draft → Draft}
    (hf : (f (b.draftOf name)).RefersWithin
      (PointsInto b.diagram.declaredNames)) :
    (b.updateDraft name f).Closed where
  drafts := fun e he => by
    rcases OrderedMap.mem_entries_put he with rfl | he
    · exact hf
    · exact h.drafts e he
  parents := h.parents

/-- Writing an entity keeps a builder closed. -/
theorem Closed.writeEntity {b : Builder} (h : b.Closed) (e : Entity) :
    (b.writeEntity e).Closed := by
  rw [writeEntity_eq]
  refine h.updateDraft (Draft.noteAll_refersWithin ?_)
  exact Draft.takeAll_refersWithin (h.draftOf _)
    (b.diagram.writesOf_refersWithin e)

/-- A declared parent keeps a builder closed. -/
theorem Closed.addParent {b : Builder} (h : b.Closed) {child parent : String}
    (hparent : parent ∈ b.diagram.declaredNames) :
    (b.addParent child parent).Closed where
  drafts := h.drafts
  parents := fun e he p hp => by
    rcases OrderedMap.mem_entries_put he with rfl | he
    · have hknown : ∀ q ∈ (b.parents.get? child).getD [],
          q ∈ b.diagram.declaredNames := by
        cases hget : b.parents.get? child with
        | none => exact fun q hq => by cases hq
        | some ps => exact h.parents _ (OrderedMap.mem_entries_of_get? hget)
      simp only at hp
      split at hp
      · exact hknown p hp
      · rcases List.mem_append.mp hp with hp | hp
        · exact hknown p hp
        · exact List.mem_singleton.mp hp ▸ hparent
    · exact h.parents e he p hp

/-- Applying a relation keeps a builder closed. -/
theorem Closed.relate {b : Builder} (h : b.Closed) (r : Relation) :
    (b.relate r).Closed := by
  unfold Builder.relate
  split
  next hparent =>
    unfold Diagram.givesParent at hparent
    simp only [Bool.and_eq_true, List.contains_iff_mem] at hparent
    exact h.addParent (List.mem_append_left _ hparent.2)
  next =>
    split
    next hprop =>
      have hwrites := b.diagram.writesBy_refersWithin r
      unfold Diagram.writesBy at hwrites
      rw [if_pos hprop] at hwrites
      exact h.updateDraft
        (Draft.takeAll_refersWithin (h.draftOf _) hwrites)
    next => exact h

/-- A loaded builder refers to declared names only. -/
theorem Closed.load {b : Builder} (h : b.Closed) : b.load.Closed := by
  have hentities : ∀ (es : List Entity) (b : Builder), b.Closed →
      (es.foldl Builder.writeEntity b).Closed := by
    intro es
    induction es with
    | nil => exact fun _ h => h
    | cons e es ih => exact fun b h => ih _ (h.writeEntity e)
  have hrelations : ∀ (rs : List Relation) (b : Builder), b.Closed →
      (rs.foldl Builder.relate b).Closed := by
    intro rs
    induction rs with
    | nil => exact fun _ h => h
    | cons r rs ih => exact fun b h => ih _ (h.relate r)
  exact hrelations _ _ (hentities _ _ h)

/-- The components of a builder in order refer to declared names only. -/
theorem Closed.components {b : Builder} (h : b.Closed) :
    ∀ e ∈ b.components.entries,
      e.2.RefersWithin (PointsInto b.diagram.declaredNames) := by
  intro e he
  rcases mem_components he with ⟨values, hval⟩ | ⟨own, hown, hval⟩
  · rw [hval]
    trivial
  · rw [hval]
    unfold componentOf
    split
    next p ps hget =>
      refine ⟨fun q hq => ⟨q, ?_, rfl⟩, h.drafts _ hown⟩
      exact h.parents _ (OrderedMap.mem_entries_of_get? hget) q hq
    next => exact h.drafts _ hown

end Builder

/-- The component schemas of a diagram refer to components among them. -/
theorem Diagram.componentSchemas_refersWithin (d : Diagram) :
    ∀ e ∈ d.componentSchemas.entries,
      e.2.RefersWithin (PointsInto d.componentSchemas.keys) := by
  intro e he
  have hclosed := (Builder.closed_new d).load
  have hnames := hclosed.components e he
  rw [Builder.diagram_load] at hnames
  exact hnames.mono (PointsInto.mono fun _ => Builder.mem_keys_componentSchemas)

end ApiScaffold
