/-
What a builder says of its history. It may be asked for anything in any
order: entities that the diagram does not declare, relations before the
entities they join, components a second time. Still each draft is what the
writes to it so far make of a blank one (`Builder.draftOf_after`), and those
are listed step by step, by `Diagram.writesIn`, without a look at the
builder. Which names are required and in which order properties stand is
then a question about a list of writes, and `Projection` has answered it.

The rest of the state needs no history. A step is made of three changes: it
updates drafts, it records a parent, it finishes. `Builder.Kept` asks of a
property that it survives each of these, and then every step keeps it.
-/
import ApiScaffold.Proofs.Schema.Inheritance
import ApiScaffold.Proofs.Schema.Steps

namespace ApiScaffold

open Builder (Step Answer StepFailure)

-- =================================================== statement vocabulary

/-- What a step writes into the draft under a name, in order. -/
def Diagram.writesIn (d : Diagram) (name : String) : Step → List Write
  | .entity e => if name = e.name then d.writesOf e else []
  | .relation r => if name = r.source then d.writesBy r else []
  | .line text => match Relation.ofLine? text.toList with
    | .ok (some r) => if name = r.source then d.writesBy r else []
    | _ => []
  | .set draft property schema required =>
    if name = draft then [⟨property, schema, required⟩] else []
  | .build =>
    (d.entities.filter (·.name == name)).flatMap d.writesOf
      ++ (d.relations.filter (·.source == name)).flatMap d.writesBy
  | .draft _ | .describe _ _ | .resolve _ | .finish => []

/-- What steps write into the draft under a name, in order. -/
def Diagram.writesDuring (d : Diagram) (name : String) (steps : List Step) :
    List Write :=
  steps.flatMap (d.writesIn name)

/-- Parents that a child of the diagram can have: other classes and
interfaces, each once. -/
structure Diagram.AdmitsParents (d : Diagram) (child : String)
    (parents : List String) : Prop where
  nodup : parents.Nodup
  irrefl : child ∉ parents
  child : child ∈ d.entityNames
  parents : ∀ p ∈ parents, p ∈ d.entityNames

/-- Whether a step asks for the components. -/
def Builder.Step.asksComponents : Step → Bool
  | .build | .finish => true
  | _ => false

/-- The object schemas that an answer holds. -/
def Builder.Answer.objectSchemas : Answer → List Json
  | .draft own => [own.toJson]
  | .components m => m.entries.filterMap fun e => e.2.own?.map Draft.toJson
  | .nothing | .fragment _ => []

/-- Where an object schema requires names there are some, each once, and
all are names of its properties. -/
def Json.RequiresOwn (schema : Json) : Prop :=
  ∀ v, schema.field? "required" = some v →
    ∃ names properties, v = Json.strings names ∧ names ≠ [] ∧ names.Nodup
      ∧ schema.field? "properties" = some (.obj properties)
      ∧ ∀ n ∈ names, n ∈ properties.map Prod.fst

-- =============================================================== writes

/-- The names of the properties stand in the order of their first
writes. -/
theorem map_fst_propertiesOf (ws : List Write) :
    (propertiesOf ws).map Prod.fst = (ws.map Write.name).eraseDups := by
  have hwritten : ∀ name ∈ (ws.map Write.name).eraseDups,
      ((lastWrite? ws name).map fun w => (name, w.schema)).map Prod.fst
        = some name := by
    intro name hname
    rw [List.mem_eraseDups] at hname
    obtain ⟨w, hw, rfl⟩ := List.mem_map.mp hname
    have hsome : (lastWrite? ws w.name).isSome = true := by
      unfold lastWrite?
      rw [List.find?_isSome]
      exact ⟨w, List.mem_reverse.mpr hw, beq_self_eq_true _⟩
    obtain ⟨last, hlast⟩ := Option.isSome_iff_exists.mp hsome
    rw [hlast]
    rfl
  unfold propertiesOf
  rw [List.map_filterMap, List.filterMap_congr hwritten,
    List.filterMap_some]

/-- What is required has been written. -/
theorem mem_names_of_requires {ws : List Write} {name : String}
    (h : requires ws name = true) : name ∈ ws.map Write.name := by
  unfold requires at h
  obtain ⟨w, hw⟩ : ∃ w, lastWrite? ws name = some w := by
    cases hlast : lastWrite? ws name with
    | none => rw [hlast] at h; cases h
    | some w => exact ⟨w, rfl⟩
  unfold lastWrite? at hw
  have hname := List.find?_some hw
  rw [beq_iff_eq] at hname
  rw [← hname]
  exact List.mem_map_of_mem (List.mem_reverse.mp (List.mem_of_find?_eq_some hw))

/-- A draft agrees with the writes to it. -/
structure Draft.Agrees (own : Draft) (ws : List Write) : Prop where
  keys : own.properties.keys = (ws.map Write.name).eraseDups
  required : own.required = requiredNames ws

namespace Draft

variable {own : Draft} {ws : List Write}

/-- The draft that takes some writes agrees with them. -/
theorem agrees_takeAll (ws : List Write) (lines : List String) :
    ((takeAll {} ws).noteAll lines).Agrees ws where
  keys := by
    rw [properties_noteAll]
    unfold OrderedMap.keys
    rw [entries_takeAll_empty, map_fst_propertiesOf]
  required := by rw [required_noteAll, required_takeAll_empty]

/-- A draft requires the names that its writes do. -/
theorem Agrees.mem_required (h : own.Agrees ws) {name : String} :
    name ∈ own.required ↔ requires ws name = true := by
  rw [h.required, mem_requiredNames]

/-- No name is required twice. -/
theorem Agrees.nodup_required (h : own.Agrees ws) : own.required.Nodup := by
  rw [h.required]
  exact nodup_requiredNames ws

/-- What is required is a property. -/
theorem Agrees.mem_keys (h : own.Agrees ws) {name : String}
    (hname : name ∈ own.required) : name ∈ own.properties.keys := by
  rw [h.keys, List.mem_eraseDups]
  exact mem_names_of_requires (h.mem_required.mp hname)

/-- The object schema of a draft that agrees with what was written requires
its own properties. -/
theorem Agrees.requiresOwn (h : own.Agrees ws) : own.toJson.RequiresOwn := by
  intro v hv
  rw [field?_required] at hv
  split at hv
  next => cases hv
  next hsome =>
    injection hv with hv
    have hne : own.required ≠ [] := by simpa using hsome
    obtain ⟨first, hfirst⟩ := List.exists_mem_of_ne_nil _ hne
    have hkey := h.mem_keys hfirst
    have hproperties : own.properties.entries ≠ [] := by
      intro hnil
      unfold OrderedMap.keys at hkey
      rw [hnil] at hkey
      cases hkey
    refine ⟨own.required, (own.properties.mapValues Fragment.toJson).entries,
      hv.symm, hne, h.nodup_required, ?_, fun n hn => ?_⟩
    · rw [field?_properties, if_neg (by simpa using hproperties)]
    · have hmem := h.mem_keys hn
      rw [← OrderedMap.keys_mapValues Fragment.toJson] at hmem
      exact hmem

end Draft

-- =========================================================== one change

namespace Builder

/-- A property of builders that updating a draft, recording a parent and
finishing keep. -/
structure Kept (Q : Builder → Prop) : Prop where
  updateDraft : ∀ {b} name f, Q b → Q (b.updateDraft name f)
  addParent : ∀ {b} r, b.diagram.givesParent r = true → Q b →
    Q (b.addParent r.target r.source)
  finished : ∀ {b}, Q b → Q { b with finished := true }

namespace Kept

variable {Q : Builder → Prop} {b : Builder}

/-- What single steps keep is kept by a relation. -/
theorem relate (hQ : Kept Q) (hb : Q b) (r : Relation) : Q (b.relate r) := by
  unfold Builder.relate
  split
  next hparent => exact hQ.addParent r hparent hb
  next =>
    split
    · exact hQ.updateDraft _ _ hb
    · exact hb

/-- What single steps keep is kept by loading the diagram. -/
theorem load (hQ : Kept Q) (hb : Q b) : Q b.load := by
  have hentities : ∀ (es : List Entity) (b : Builder), Q b →
      Q (es.foldl writeEntity b) := by
    intro es
    induction es with
    | nil => exact fun _ h => h
    | cons e es ih => exact fun b h => ih _ (hQ.updateDraft e.name _ h)
  have hrelations : ∀ (rs : List Relation) (b : Builder), Q b →
      Q (rs.foldl Builder.relate b) := by
    intro rs
    induction rs with
    | nil => exact fun _ h => h
    | cons r rs ih => exact fun b h => ih _ (hQ.relate h r)
  exact hrelations _ _ (hentities _ _ hb)

/-- What single steps keep is kept where the components are asked for. -/
theorem finish (hQ : Kept Q) (hb : Q b) : Q b.finish.1 := by
  unfold Builder.finish
  split
  · exact hb
  · exact hQ.finished hb

/-- Every step is made of such changes. -/
theorem step (hQ : Kept Q) (hb : Q b) (s : Step) : Q (b.step s).1 := by
  cases s with
  | draft name => exact hQ.updateDraft name id hb
  | entity e =>
      show Q (b.writeEntity e)
      rw [writeEntity_eq]
      exact hQ.updateDraft e.name _ hb
  | relation r => exact hQ.relate hb r
  | line text =>
      unfold Builder.step
      simp only
      split
      · exact hQ.relate hb _
      · exact hb
      · exact hb
  | set name property schema required =>
      exact hQ.updateDraft name (·.write property schema required) hb
  | describe name line => exact hQ.updateDraft name (·.describe line) hb
  | resolve type => exact hb
  | build => exact hQ.finish (hQ.load hb)
  | finish => exact hQ.finish hb

end Kept

/-- Recorded parents stay admissible. -/
theorem kept_admitsParents : Kept fun b =>
    ∀ e ∈ b.parents.entries, b.diagram.AdmitsParents e.1 e.2 where
  updateDraft _ _ hb := hb
  finished hb := hb
  addParent := by
    intro b r hr hb e he
    obtain ⟨-, hne, htarget, hsource⟩ := Diagram.givesParent_iff.mp hr
    rcases OrderedMap.mem_entries_put he with rfl | he
    · -- the parents known so far, none where there is no entry
      have hknown : b.diagram.AdmitsParents r.target
          ((b.parents.get? r.target).getD []) := by
        cases hget : b.parents.get? r.target with
        | none => exact ⟨List.nodup_nil, by simp, htarget, by simp⟩
        | some ps => exact hb _ (OrderedMap.mem_entries_of_get? hget)
      show b.diagram.AdmitsParents r.target (if _ then _ else _)
      split
      next => exact hknown
      next hnew =>
        rw [List.contains_iff_mem] at hnew
        refine ⟨?_, ?_, htarget, fun p hp => ?_⟩
        · refine List.nodup_append.mpr ⟨hknown.nodup, by simp, ?_⟩
          intro a ha c hc heq
          rw [List.mem_singleton.mp hc] at heq
          exact hnew (heq ▸ ha)
        · intro hmem
          rcases List.mem_append.mp hmem with hmem | hmem
          · exact hknown.irrefl hmem
          · exact hne (List.mem_singleton.mp hmem)
        · rcases List.mem_append.mp hp with hp | hp
          · exact hknown.parents p hp
          · exact List.mem_singleton.mp hp ▸ hsource
    · exact hb e he

/-- A draft is the one under its name. -/
theorem draftOf_of_mem {b : Builder} {e : String × Draft}
    (he : e ∈ b.drafts.entries) : b.draftOf e.1 = e.2 := by
  unfold draftOf
  rw [OrderedMap.get?_of_mem he]
  rfl

-- ============================================================= one step

/-- A step changes a draft by what it writes there, and by lines. -/
theorem exists_draftOf_step (b : Builder) (s : Step) (name : String) :
    ∃ lines, (b.step s).1.draftOf name
      = ((b.draftOf name).takeAll (b.diagram.writesIn name s)).noteAll
          lines := by
  have hrelate : ∀ r, (b.relate r).draftOf name
      = (b.draftOf name).takeAll
          (if name = r.source then b.diagram.writesBy r else []) := by
    intro r
    rw [draftOf_relate]
    split <;> rfl
  cases s with
  | draft other =>
      refine ⟨[], ?_⟩
      show (b.updateDraft other id).draftOf name = b.draftOf name
      rw [draftOf_updateDraft]
      split
      next heq => rw [heq]; rfl
      next => rfl
  | entity e =>
      by_cases hname : name = e.name
      · refine ⟨e.notes, ?_⟩
        show (b.writeEntity e).draftOf name = _
        rw [draftOf_writeEntity, if_pos hname, Diagram.writesIn, if_pos hname]
      · refine ⟨[], ?_⟩
        show (b.writeEntity e).draftOf name = _
        rw [draftOf_writeEntity, if_neg hname, Diagram.writesIn, if_neg hname]
        rfl
  | relation r => exact ⟨[], hrelate r⟩
  | line text =>
      refine ⟨[], ?_⟩
      unfold step Diagram.writesIn
      simp only
      cases Relation.ofLine? text.toList with
      | error e => rfl
      | ok found =>
          cases found with
          | none => rfl
          | some r => exact hrelate r
  | set other property schema required =>
      refine ⟨[], ?_⟩
      show (b.updateDraft other _).draftOf name = _
      rw [draftOf_updateDraft, Diagram.writesIn]
      split
      next heq => rw [heq]; rfl
      next => rfl
  | describe other line =>
      show ∃ lines, (b.updateDraft other _).draftOf name
        = (b.draftOf name).noteAll lines
      rw [draftOf_updateDraft]
      split
      next heq => exact ⟨[line], by rw [heq]; rfl⟩
      next => exact ⟨[], rfl⟩
  | resolve type => exact ⟨[], rfl⟩
  | build =>
      -- entities write and note, then relations write
      refine ⟨(b.diagram.entities.filter (·.name == name)).flatMap
        Entity.notes, ?_⟩
      show b.load.finish.1.draftOf name = _
      rw [draftOf_finish]
      unfold load
      simp only
      rw [draftOf_foldl_relate, draftOf_foldl_writeEntity,
        diagram_foldl_writeEntity, Draft.takeAll_noteAll,
        ← Draft.takeAll_append]
      rfl
  | finish =>
      refine ⟨[], ?_⟩
      show b.finish.1.draftOf name = _
      rw [draftOf_finish]
      rfl

/-- A builder whose components were asked for is finished. -/
theorem finished_finish (b : Builder) : b.finish.1.finished = true := by
  unfold finish
  split
  next h => exact h
  next => rfl

/-- A builder is finished by the steps that ask for components, and by no
other. -/
theorem finished_step (b : Builder) (s : Step) :
    (b.step s).1.finished = (b.finished || s.asksComponents) := by
  cases s with
  | relation r =>
      show (b.relate r).finished = _
      rw [finished_relate]
      exact (Bool.or_false _).symm
  | line text =>
      unfold step
      simp only
      split
      · rw [finished_relate]
        exact (Bool.or_false _).symm
      · exact (Bool.or_false _).symm
      · exact (Bool.or_false _).symm
  | build =>
      show b.load.finish.1.finished = _
      rw [finished_finish]
      exact (Bool.or_true _).symm
  | finish =>
      show b.finish.1.finished = _
      rw [finished_finish]
      exact (Bool.or_true _).symm
  | _ => exact (Bool.or_false _).symm

/-- Who asks for components gets those of the state that the step leaves,
unless somebody asked before. -/
theorem step_of_asksComponents (b : Builder) {s : Step}
    (hs : s.asksComponents = true) :
    (b.step s).2 = if b.finished then .error .alreadyFinished
      else .ok (.components (b.step s).1.components) := by
  have hfinish : ∀ b : Builder, b.finish.2
      = if b.finished then .error .alreadyFinished
        else .ok (.components b.finish.1.components) := by
    intro b
    unfold finish
    split <;> rfl
  cases s with
  | build =>
      show b.load.finish.2 = _
      rw [hfinish, finished_load]
      rfl
  | finish => exact hfinish b
  | _ => cases hs

/-- The object schemas of an answer are those of drafts that the step
leaves. -/
theorem exists_draftOf_of_objectSchemas {b : Builder} {s : Step} {a : Answer}
    (ha : (b.step s).2 = .ok a) {schema : Json} (hschema : schema ∈ a.objectSchemas) :
    ∃ name, schema = ((b.step s).1.draftOf name).toJson := by
  by_cases hs : s.asksComponents = true
  · rw [b.step_of_asksComponents hs] at ha
    split at ha
    · cases ha
    · injection ha with ha
      subst ha
      obtain ⟨e, he, hown⟩ := List.mem_filterMap.mp hschema
      rcases mem_components he with ⟨values, hval⟩ | ⟨own, hmem, hval⟩
      · rw [hval] at hown
        cases hown
      · rw [hval, own?_componentOf] at hown
        injection hown with hown
        refine ⟨e.1, ?_⟩
        rw [← hown, draftOf_of_mem hmem]
  · cases s with
    | draft name =>
        injection ha with ha
        subst ha
        exact ⟨name, List.mem_singleton.mp hschema⟩
    | line text =>
        unfold step at ha
        simp only at ha
        split at ha
        · injection ha with ha
          subst ha
          cases hschema
        · cases ha
        · cases ha
    | build => exact absurd rfl hs
    | finish => exact absurd rfl hs
    | _ =>
        injection ha with ha
        subst ha
        cases hschema

-- ================================================================ all runs

/-- The builder of a diagram after steps. -/
def after (d : Diagram) (steps : List Step) : Builder :=
  steps.foldl (fun b s => (b.step s).1) (new d)

/-- A last step is taken from where the others have led. -/
theorem after_concat (d : Diagram) (steps : List Step) (s : Step) :
    after d (steps ++ [s]) = ((after d steps).step s).1 :=
  List.foldl_concat ..

/-- What stands at a place of a run is the step taken there from the state
that the steps before it lead to. -/
theorem getElem?_run (steps : List Step) (b : Builder) (i : Nat) :
    (b.run steps)[i]? = steps[i]?.map fun s =>
      ((steps.take i).foldl (fun b s => (b.step s).1) b).step s := by
  induction steps generalizing b i with
  | nil => rfl
  | cons s steps ih =>
      cases i with
      | zero => rfl
      | succ i => exact ih (b.step s).1 i

variable {d : Diagram}

/-- What holds of a fresh builder and is kept holds after any steps. -/
theorem Kept.after {Q : Builder → Prop} (hQ : Kept Q) (hnew : Q (new d))
    (steps : List Step) : Q (after d steps) := by
  induction steps using List.reverseRecOn with
  | nil => exact hnew
  | append_singleton steps s ih =>
      rw [after_concat]
      exact hQ.step ih s

/-- No step changes the diagram. -/
theorem diagram_after (steps : List Step) : (after d steps).diagram = d := by
  induction steps using List.reverseRecOn with
  | nil => rfl
  | append_singleton steps s ih => rw [after_concat, diagram_step, ih]

/-- A builder is finished exactly if some step has asked for its components. -/
theorem finished_after (steps : List Step) :
    (after d steps).finished = steps.any Step.asksComponents := by
  induction steps using List.reverseRecOn with
  | nil => rfl
  | append_singleton steps s ih =>
      rw [after_concat, finished_step, ih, List.any_append, List.any_cons,
        List.any_nil, Bool.or_false]

/-- A draft is what the writes to it make of a blank one, but for the lines
of its description. -/
theorem exists_draftOf_after (steps : List Step) (name : String) :
    ∃ lines, (after d steps).draftOf name
      = (Draft.takeAll {} (d.writesDuring name steps)).noteAll lines := by
  induction steps using List.reverseRecOn with
  | nil => exact ⟨[], rfl⟩
  | append_singleton steps s ih =>
      obtain ⟨lines, hlines⟩ := ih
      obtain ⟨more, hmore⟩ := (after d steps).exists_draftOf_step s name
      refine ⟨lines ++ more, ?_⟩
      rw [after_concat, hmore, hlines, diagram_after, Draft.takeAll_noteAll,
        ← Draft.takeAll_append, ← Draft.noteAll_append]
      unfold Diagram.writesDuring
      rw [List.flatMap_append, List.flatMap_singleton]

/-- After any steps a draft agrees with the writes that they have made. -/
theorem agrees_draftOf_after (steps : List Step) (name : String) :
    ((after d steps).draftOf name).Agrees (d.writesDuring name steps) := by
  obtain ⟨lines, hlines⟩ := exists_draftOf_after steps name
  rw [hlines]
  exact Draft.agrees_takeAll _ lines

end Builder

open Builder in
/-- Whatever steps a builder takes, in any order and failing ones included:
each of its drafts requires the names whose last write required them, each
once and all of them properties, which stand in the order of their first
writes; the parents recorded are other classes and interfaces of the
diagram, each once; the first step that asks for components gets them and
every later one fails; and the object schemas answered require properties
of their own. -/
theorem run_follows_history {d : Diagram} {steps : List Step} {i : Nat}
    {b : Builder} {answer : Except StepFailure Answer}
    (h : ((Builder.new d).run steps)[i]? = some (b, answer)) :
    (∀ e ∈ b.drafts.entries,
      e.2.required.Nodup
      ∧ (∀ n ∈ e.2.required, n ∈ e.2.properties.keys)
      ∧ (∀ n, n ∈ e.2.required
        ↔ requires (d.writesDuring e.1 (steps.take (i + 1))) n = true)
      ∧ e.2.properties.keys
        = ((d.writesDuring e.1 (steps.take (i + 1))).map Write.name).eraseDups)
    ∧ (∀ e ∈ b.parents.entries, d.AdmitsParents e.1 e.2)
    ∧ (∀ s, steps[i]? = some s → s.asksComponents = true →
      if (steps.take i).any Step.asksComponents
      then answer = .error .alreadyFinished
      else ∃ m, answer = .ok (.components m))
    ∧ ∀ a, answer = .ok a → ∀ schema ∈ a.objectSchemas, schema.RequiresOwn := by
  rw [getElem?_run] at h
  obtain ⟨s, hs, hstep⟩ := Option.map_eq_some_iff.mp h
  change (after d (steps.take i)).step s = (b, answer) at hstep
  have htake : steps.take (i + 1) = steps.take i ++ [s] := by
    rw [List.take_add_one, hs]
    rfl
  have hb : b = after d (steps.take (i + 1)) := by
    rw [htake, after_concat, hstep]
  have hanswer : ((after d (steps.take i)).step s).2 = answer := by rw [hstep]
  have hagrees : ∀ name,
      (b.draftOf name).Agrees (d.writesDuring name (steps.take (i + 1))) := by
    rw [hb]
    exact agrees_draftOf_after _
  refine ⟨fun e he => ?_, ?_, fun s' hs' hasks => ?_, fun a ha schema hmem => ?_⟩
  · have hown := hagrees e.1
    rw [draftOf_of_mem he] at hown
    exact ⟨hown.nodup_required, fun n => hown.mem_keys, fun n => hown.mem_required,
      hown.keys⟩
  · have hparents := kept_admitsParents.after (d := d) (fun e he => by cases he)
      (steps.take (i + 1))
    rwa [← hb, hb, diagram_after, ← hb] at hparents
  · rw [hs] at hs'
    injection hs' with hs'
    subst hs'
    rw [← hanswer, step_of_asksComponents _ hasks, finished_after]
    split
    · rfl
    · exact ⟨_, rfl⟩
  · have hstate : ((after d (steps.take i)).step s).1 = b := by rw [hstep]
    obtain ⟨name, rfl⟩ := exists_draftOf_of_objectSchemas (hanswer.trans ha) hmem
    rw [hstate]
    exact (hagrees name).requiresOwn

/-- A builder that relates a class before writing it, takes a required name
back, writes an entity that the diagram does not declare, and is loaded once
more after it has finished. -/
theorem run_follows_history_of_late_build :
    let d : Diagram := {
      classes := [
        { name := "A", attributes := [⟨"x", some "int", .pub⟩] }, { name := "B" }]
      relations := [⟨"B", "A", .inheritance, "<|--", none, none⟩] }
    let steps : List Step := [
      .relation ⟨"A", "B", .composition, "*--", none, none⟩,
      .set "A" "b" .text true,
      .set "A" "b" .text false,
      .entity { name := "Ghost", attributes := [⟨"x", none, .pub⟩] },
      .finish,
      .build]
    ∃ b answer, ((Builder.new d).run steps)[5]? = some (b, answer)
      ∧ answer = .error .alreadyFinished
      ∧ ∃ own, ("A", own) ∈ b.drafts.entries
        ∧ own.properties.keys = ["b", "x"]
        ∧ "x" ∈ own.required ∧ "b" ∉ own.required := by
  intro d steps
  obtain ⟨b, answer, h, own, hown⟩ : ∃ b answer,
      ((Builder.new d).run steps)[5]? = some (b, answer)
        ∧ ∃ own, ("A", own) ∈ b.drafts.entries :=
    ⟨_, _, rfl, _, List.mem_cons_self ..⟩
  obtain ⟨hdrafts, -, hanswer, -⟩ := run_follows_history h
  obtain ⟨-, -, hrequired, hkeys⟩ := hdrafts _ hown
  simp only at hrequired hkeys
  have hlate := hanswer .build rfl rfl
  rw [if_pos (by decide)] at hlate
  refine ⟨b, answer, h, hlate, own, hown, ?_, ?_, ?_⟩
  · rw [hkeys]
    decide +kernel
  · rw [hrequired]
    decide +kernel
  · rw [hrequired]
    decide +kernel

end ApiScaffold
