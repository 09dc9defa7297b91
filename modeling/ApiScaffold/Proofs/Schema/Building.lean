/-
What the steps of a builder do, one law for each. An entity writes its
attributes and its note into the draft under its name; a relation writes
at most one property into the draft of its source, or records a parent.
Either leaves every other draft and the diagram as they were, so the
draft under a name after a run is a fold over what concerns that name.

`Write` is the vocabulary: `Diagram.writesOf` lists what an entity writes
and `Diagram.writesBy` what a relation does. Both look at the diagram
alone, never at the builder, and that is why runs can be taken apart.

The component map puts drafts over enumerations, which is a list of
writes into an ordered map; its keys and values are read off the laws of
such maps.
-/
import ApiScaffold.Proofs.Data.OrderedMap
import ApiScaffold.Schema.Builder

namespace ApiScaffold

-- ================================================================= writes

/-- One write of a property into a draft. -/
structure Write where
  name : String
  schema : Fragment
  required : Bool

namespace Draft

/-- The draft after one write. -/
def take (d : Draft) (w : Write) : Draft := d.write w.name w.schema w.required

/-- The draft after writes, in order. -/
def takeAll (d : Draft) (ws : List Write) : Draft := ws.foldl take d

/-- The draft with lines added to its description, in order. -/
def noteAll (d : Draft) (lines : List String) : Draft := lines.foldl describe d

@[simp] theorem properties_take (d : Draft) (w : Write) :
    (d.take w).properties = d.properties.put w.name w.schema := rfl

/-- Writes are taken one after another. -/
theorem takeAll_append (d : Draft) (ws vs : List Write) :
    d.takeAll (ws ++ vs) = (d.takeAll ws).takeAll vs :=
  List.foldl_append

/-- Notes are taken one after another. -/
theorem noteAll_append (d : Draft) (ls ms : List String) :
    d.noteAll (ls ++ ms) = (d.noteAll ls).noteAll ms :=
  List.foldl_append

/-- Notes leave the properties alone. -/
theorem properties_noteAll (d : Draft) (lines : List String) :
    (d.noteAll lines).properties = d.properties := by
  induction lines generalizing d with
  | nil => rfl
  | cons line lines ih => exact ih (d.describe line)

/-- Notes leave the required names alone. -/
theorem required_noteAll (d : Draft) (lines : List String) :
    (d.noteAll lines).required = d.required := by
  induction lines generalizing d with
  | nil => rfl
  | cons line lines ih => exact ih (d.describe line)

/-- Writes leave the description alone. -/
theorem description_takeAll (d : Draft) (ws : List Write) :
    (d.takeAll ws).description = d.description := by
  induction ws generalizing d with
  | nil => rfl
  | cons w ws ih => exact ih (d.take w)

/-- Writes and lines do not meet: they change different fields. -/
theorem take_noteAll (d : Draft) (w : Write) (lines : List String) :
    (d.noteAll lines).take w = (d.take w).noteAll lines := by
  induction lines generalizing d with
  | nil => rfl
  | cons line lines ih => exact ih (d.describe line)

/-- Whether notes come before writes or behind them makes no difference. -/
theorem takeAll_noteAll (d : Draft) (ws : List Write) (lines : List String) :
    (d.noteAll lines).takeAll ws = (d.takeAll ws).noteAll lines := by
  induction ws generalizing d with
  | nil => rfl
  | cons w ws ih =>
      change ((d.noteAll lines).take w).takeAll ws = _
      rw [take_noteAll, ih]
      rfl

end Draft

/-- What an entity writes: its attributes, of which the public ones are
required. -/
def Diagram.writesOf (d : Diagram) (e : Entity) : List Write :=
  e.attributes.map fun a =>
    ⟨a.name, fragmentOfType d.declaredNames a.type, a.access == .pub⟩

/-- The line that an entity adds to the description, if it has methods. -/
def Entity.notes (e : Entity) : List String :=
  if e.methods.isEmpty then [] else ["Methods: " ++ methodSummary e.methods]

/-- The schema that a decision gives to references to a component: one reference,
or an array of them with the bounds decided on. -/
def Decision.schema (o : Decision) (target : String) : Fragment :=
  if o.isArray
  then .array (.ref ("#/components/schemas/" ++ target)) o.minItems o.maxItems
  else .ref ("#/components/schemas/" ++ target)

/-- A relation becomes what is decided about the multiplicity of its target. -/
theorem relationSchema_eq (r : Relation) :
    relationSchema r
      = (Decision.ofCardinality? r.toCardinality).schema r.target := rfl

/-- What a relation writes: a reference property where both ends are
known. -/
def Diagram.writesBy (d : Diagram) (r : Relation) : List Write :=
  if d.givesProperty r then
    [⟨propertyName r.target, relationSchema r,
      (Decision.ofCardinality? r.toCardinality).required⟩]
  else []

-- ============================================================== summaries

/-- The note on methods says something as soon as there is a method. -/
theorem methodSummary_ne_empty {m : Method} {ms : List Method} :
    methodSummary (m :: ms) ≠ "" := by
  have hone : m.summary ≠ "" := by
    unfold Method.summary
    cases m.access <;> simp [Access.name]
  unfold methodSummary
  rw [List.map_cons]
  cases ms with
  | nil =>
      rw [List.map_nil, String.intercalate_singleton]
      exact hone
  | cons m' ms =>
      rw [List.map_cons, String.intercalate_cons_cons]
      simp

/-- A summary is empty when there are no methods. -/
theorem isEmpty_methodSummary (ms : List Method) :
    (methodSummary ms).isEmpty = ms.isEmpty := by
  cases ms with
  | nil => rfl
  | cons m ms =>
      have hne : methodSummary (m :: ms) ≠ "" := methodSummary_ne_empty
      rw [List.isEmpty_cons]
      exact Bool.eq_false_iff.mpr fun h => hne (String.isEmpty_iff.mp h)

namespace Builder

-- ================================================================ updates

/-- An update changes the draft under its own name only. -/
theorem draftOf_updateDraft (b : Builder) (name : String)
    (f : Draft → Draft) (other : String) :
    (b.updateDraft name f).draftOf other
      = if other = name then f (b.draftOf name) else b.draftOf other := by
  unfold updateDraft draftOf
  simp only
  rw [OrderedMap.get?_put]
  by_cases h : other = name
  · rw [if_pos h, if_pos h]
    rfl
  · rw [if_neg h, if_neg h]

/-- A draft exists after an update when it existed or was updated. -/
theorem mem_keys_updateDraft {b : Builder} {name : String}
    {f : Draft → Draft} {other : String} :
    other ∈ (b.updateDraft name f).drafts.keys
      ↔ other = name ∨ other ∈ b.drafts.keys :=
  OrderedMap.mem_keys_put

/-- An entity is written as its writes and its notes. -/
theorem writeEntity_eq (b : Builder) (e : Entity) :
    b.writeEntity e
      = b.updateDraft e.name fun draft =>
          (draft.takeAll (b.diagram.writesOf e)).noteAll e.notes := by
  unfold writeEntity Entity.notes Diagram.writesOf Draft.takeAll
  congr 1
  funext draft
  simp only [isEmpty_methodSummary, List.foldl_map]
  split <;> rfl

/-- A relation that records a parent is no structural one. -/
theorem writesBy_of_givesParent {d : Diagram} {r : Relation}
    (h : d.givesParent r = true) : d.writesBy r = [] := by
  unfold Diagram.givesParent at h
  simp only [Bool.and_eq_true, beq_iff_eq] at h
  have hkind : r.kind.isStructural = false := by
    rw [h.1.1.1]
    rfl
  unfold Diagram.writesBy Diagram.givesProperty
  simp [hkind]

@[simp] theorem diagram_writeEntity (b : Builder) (e : Entity) :
    (b.writeEntity e).diagram = b.diagram := rfl

@[simp] theorem diagram_relate (b : Builder) (r : Relation) :
    (b.relate r).diagram = b.diagram := by
  unfold relate
  split
  · rfl
  · split <;> rfl

/-- An entity changes the draft under its name only. -/
theorem draftOf_writeEntity (b : Builder) (e : Entity) (name : String) :
    (b.writeEntity e).draftOf name
      = if name = e.name then
          ((b.draftOf name).takeAll (b.diagram.writesOf e)).noteAll e.notes
        else b.draftOf name := by
  rw [writeEntity_eq, draftOf_updateDraft]
  by_cases h : name = e.name
  · rw [if_pos h, if_pos h, h]
  · rw [if_neg h, if_neg h]

/-- A relation changes the draft of its source only, and that one by what
it writes. -/
theorem draftOf_relate (b : Builder) (r : Relation) (name : String) :
    (b.relate r).draftOf name
      = if name = r.source then
          (b.draftOf name).takeAll (b.diagram.writesBy r)
        else b.draftOf name := by
  unfold relate
  by_cases hparent : b.diagram.givesParent r = true
  · rw [if_pos hparent, writesBy_of_givesParent hparent]
    change b.draftOf name = ite _ (b.draftOf name) _
    rw [ite_self]
  · rw [if_neg hparent]
    unfold Diagram.writesBy
    by_cases hprop : b.diagram.givesProperty r = true
    · rw [if_pos hprop, if_pos hprop, draftOf_updateDraft]
      by_cases hname : name = r.source
      · rw [if_pos hname, if_pos hname, hname]
        rfl
      · rw [if_neg hname, if_neg hname]
    · rw [if_neg hprop, if_neg hprop]
      change b.draftOf name = ite _ (b.draftOf name) _
      rw [ite_self]

/-- A relation deletes no draft. -/
theorem mem_keys_relate {b : Builder} {r : Relation} {name : String}
    (h : name ∈ b.drafts.keys) : name ∈ (b.relate r).drafts.keys := by
  unfold relate
  split
  · exact h
  · split
    · exact mem_keys_updateDraft.mpr (Or.inr h)
    · exact h

-- =================================================================== runs

/-- Writing entities leaves the diagram alone. -/
theorem diagram_foldl_writeEntity (es : List Entity) (b : Builder) :
    (es.foldl writeEntity b).diagram = b.diagram := by
  induction es generalizing b with
  | nil => rfl
  | cons e es ih => exact ih (b.writeEntity e)

/-- Applying relations leaves the diagram alone. -/
theorem diagram_foldl_relate (rs : List Relation) (b : Builder) :
    (rs.foldl relate b).diagram = b.diagram := by
  induction rs generalizing b with
  | nil => rfl
  | cons r rs ih => rw [List.foldl_cons, ih, diagram_relate]

@[simp] theorem diagram_load (b : Builder) : b.load.diagram = b.diagram := by
  unfold load
  simp only
  rw [diagram_foldl_relate, diagram_foldl_writeEntity]

/-- A relation does not finish a builder. -/
theorem finished_relate (b : Builder) (r : Relation) :
    (b.relate r).finished = b.finished := by
  unfold relate
  split
  · rfl
  · split <;> rfl

/-- Nor do relations in a row. -/
theorem finished_foldl_relate (rs : List Relation) (b : Builder) :
    (rs.foldl relate b).finished = b.finished := by
  induction rs generalizing b with
  | nil => rfl
  | cons r rs ih => rw [List.foldl_cons, ih, finished_relate]

/-- Loading finishes nothing. -/
theorem finished_load (b : Builder) : b.load.finished = b.finished := by
  have hentities : ∀ (es : List Entity) (b : Builder),
      (es.foldl writeEntity b).finished = b.finished := by
    intro es
    induction es with
    | nil => exact fun _ => rfl
    | cons e es ih => exact fun b => ih (b.writeEntity e)
  unfold load
  simp only
  rw [finished_foldl_relate, hentities]

/-- A builder that has not finished produces its components. -/
theorem finish_of_unfinished {b : Builder} (h : b.finished = false) :
    b.finish.2 = .ok (.components b.components) := by
  unfold finish
  rw [h]
  rfl

/-- A fresh builder produces the components of its diagram. -/
theorem step_build_new (d : Diagram) :
    ((new d).step .build).2 = .ok (.components d.componentSchemas) :=
  finish_of_unfinished ((new d).finished_load)

/-- After writing entities exactly theirs and the old drafts exist. -/
theorem mem_keys_foldl_writeEntity {name : String} :
    ∀ {es : List Entity} {b : Builder},
      name ∈ (es.foldl writeEntity b).drafts.keys
        ↔ name ∈ b.drafts.keys ∨ name ∈ es.map Entity.name := by
  intro es
  induction es with
  | nil => intro b; simp
  | cons e es ih =>
      intro b
      have hone : name ∈ (b.writeEntity e).drafts.keys
          ↔ name = e.name ∨ name ∈ b.drafts.keys := mem_keys_updateDraft
      rw [List.foldl_cons, ih, hone, List.map_cons, List.mem_cons]
      grind

/-- Relations lose no draft. -/
theorem mem_keys_foldl_relate {name : String} :
    ∀ {rs : List Relation} {b : Builder}, name ∈ b.drafts.keys →
      name ∈ (rs.foldl relate b).drafts.keys := by
  intro rs
  induction rs with
  | nil => intro b h; exact h
  | cons r rs ih => intro b h; exact ih (mem_keys_relate h)

/-- Every class and interface of a diagram has a draft once it is
loaded. -/
theorem mem_keys_load {b : Builder} {name : String}
    (h : name ∈ b.diagram.entityNames) : name ∈ b.load.drafts.keys := by
  unfold load
  exact mem_keys_foldl_relate (mem_keys_foldl_writeEntity.mpr (Or.inr h))

/-- Writing entities changes a draft by what those of its name write, in
order. -/
theorem draftOf_foldl_writeEntity (name : String) :
    ∀ (es : List Entity) (b : Builder),
      (es.foldl writeEntity b).draftOf name
        = ((b.draftOf name).takeAll
            ((es.filter (·.name == name)).flatMap b.diagram.writesOf)).noteAll
            ((es.filter (·.name == name)).flatMap Entity.notes) := by
  intro es
  induction es with
  | nil => intro b; rfl
  | cons e es ih =>
      intro b
      rw [List.foldl_cons, ih, draftOf_writeEntity, diagram_writeEntity]
      by_cases h : name = e.name
      · have hkeep : (e :: es).filter (·.name == name)
            = e :: es.filter (·.name == name) := by
          simp [h]
        rw [if_pos h, hkeep, List.flatMap_cons,
          List.flatMap_cons, Draft.takeAll_append, Draft.noteAll_append,
          Draft.takeAll_noteAll]
      · have hdrop : (e :: es).filter (·.name == name)
            = es.filter (·.name == name) := by
          simp [Ne.symm h]
        rw [if_neg h, hdrop]

/-- Applying relations changes a draft by what those from it write, in
order. -/
theorem draftOf_foldl_relate (name : String) :
    ∀ (rs : List Relation) (b : Builder),
      (rs.foldl relate b).draftOf name
        = (b.draftOf name).takeAll
            ((rs.filter (·.source == name)).flatMap b.diagram.writesBy) := by
  intro rs
  induction rs with
  | nil => intro b; rfl
  | cons r rs ih =>
      intro b
      rw [List.foldl_cons, ih, draftOf_relate, diagram_relate]
      by_cases h : name = r.source
      · have hkeep : (r :: rs).filter (·.source == name)
            = r :: rs.filter (·.source == name) := by
          simp [h]
        rw [if_pos h, hkeep, List.flatMap_cons,
          Draft.takeAll_append]
      · have hdrop : (r :: rs).filter (·.source == name)
            = rs.filter (·.source == name) := by
          simp [Ne.symm h]
        rw [if_neg h, hdrop]

-- ============================================================= components

/-- The component under the name of a draft is that draft's. -/
theorem get?_components {b : Builder} {name : String} (h : name ∈ b.drafts.keys) :
    b.components.get? name = some (b.componentOf name (b.draftOf name)) := by
  obtain ⟨own, hown⟩ : ∃ own, b.drafts.get? name = some own :=
    Option.isSome_iff_exists.mp (OrderedMap.has_iff.mpr h)
  have hdraft : b.draftOf name = own := by
    unfold draftOf
    rw [hown]
    rfl
  unfold components
  simp only
  rw [OrderedMap.get?_putAll, lookup_reverse, hdraft]
  · have hmap : (b.drafts.entries.map
        fun e => (e.1, b.componentOf e.1 e.2)).lookup name
          = some (b.componentOf name own) := by
      rw [lookup_map_entry]
      exact congrArg (Option.map _) hown
    rw [hmap]
    rfl
  · rw [List.map_map]
    exact b.drafts.distinct

/-- The names of the components: those of enumerations and of drafts. -/
theorem mem_keys_components {b : Builder} {name : String} :
    name ∈ b.components.keys
      ↔ name ∈ b.diagram.enums.map Enumeration.name
        ∨ name ∈ b.drafts.keys := by
  unfold components OrderedMap.ofList
  simp only
  rw [OrderedMap.mem_keys_putAll, OrderedMap.mem_keys_putAll]
  simp [OrderedMap.keys, OrderedMap.empty]

/-- A component is that of an enumeration or of a draft. -/
theorem mem_components {b : Builder} {e : String × Component}
    (he : e ∈ b.components.entries) :
    (∃ values, e.2 = .enumeration values)
      ∨ ∃ own, (e.1, own) ∈ b.drafts.entries
          ∧ e.2 = b.componentOf e.1 own := by
  unfold components at he
  rcases OrderedMap.mem_entries_putAll he with hd | he
  · obtain ⟨⟨name, own⟩, hown, rfl⟩ := List.mem_map.mp hd
    exact Or.inr ⟨own, hown, rfl⟩
  · rcases OrderedMap.mem_entries_putAll he with he | he
    · obtain ⟨n, -, rfl⟩ := List.mem_map.mp he
      exact Or.inl ⟨n.values, rfl⟩
    · cases he

/-- Every declared name is the name of a component. -/
theorem mem_keys_componentSchemas {d : Diagram} {name : String}
    (h : name ∈ d.declaredNames) : name ∈ d.componentSchemas.keys := by
  unfold Diagram.componentSchemas
  rw [mem_keys_components, diagram_load]
  rcases List.mem_append.mp h with h | h
  · exact Or.inr (mem_keys_load h)
  · exact Or.inl h

/-- Every class has a component. -/
theorem mem_keys_componentSchemas_of_class {d : Diagram} {name : String}
    (h : name ∈ d.classes.map Entity.name) : name ∈ d.componentSchemas.keys := by
  refine mem_keys_componentSchemas (List.mem_append_left _ ?_)
  unfold Diagram.entityNames Diagram.entities
  rw [List.map_append]
  exact List.mem_append_left _ h

end Builder

end ApiScaffold
