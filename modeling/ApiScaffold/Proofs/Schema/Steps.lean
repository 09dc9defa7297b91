/-
Builders in use. A builder is reached from a fresh one by steps, in any
order and number, failing ones included; its diagram never changes, and a
property of drafts that the blank draft has, and that writes and lines
keep, holds of every draft of every reachable builder (`Reachable.draftOf`).

Every step but two changes drafts by `updateDraft`, one at a time. Loading
runs over the whole diagram, but `Building` has its effect on a draft in
closed form: writes, lines and writes again.
-/
import ApiScaffold.Proofs.Schema.Building
import Mathlib.Data.List.Nodup

namespace ApiScaffold

-- =============================================================== drafts

/-- A property of drafts that the blank draft has and that building
keeps. -/
structure Draft.Kept (P : Draft → Prop) : Prop where
  blank : P {}
  write : ∀ {d} name schema required, P d → P (d.write name schema required)
  describe : ∀ {d} line, P d → P (d.describe line)

namespace Draft.Kept

variable {P : Draft → Prop} {d : Draft}

/-- What each write keeps is kept by writes in a row. -/
theorem takeAll (hP : Kept P) (hd : P d) (ws : List Write) :
    P (d.takeAll ws) := by
  induction ws generalizing d with
  | nil => exact hd
  | cons w ws ih => exact ih (hP.write w.name w.schema w.required hd)

/-- What each note keeps is kept by notes in a row. -/
theorem noteAll (hP : Kept P) (hd : P d) (lines : List String) :
    P (d.noteAll lines) := by
  induction lines generalizing d with
  | nil => exact hd
  | cons line lines ih => exact ih (hP.describe line hd)

end Draft.Kept

/-- No name is required twice. -/
theorem Draft.kept_nodup_required : Kept fun d => d.required.Nodup where
  blank := List.nodup_nil
  write := by
    intro d name schema required hd
    unfold Draft.write
    simp only
    split
    · split
      next => exact hd
      next hnew =>
        rw [List.contains_iff_mem] at hnew
        rw [List.nodup_append]
        refine ⟨hd, by simp, fun a ha b hb => ?_⟩
        rw [List.mem_singleton.mp hb]
        exact fun heq => hnew (heq ▸ ha)
    · exact hd.erase name
  describe := fun _ hd => hd

-- ============================================================= builders

namespace Builder

/-- Builders that steps lead to from a fresh one. -/
inductive Reachable (d : Diagram) : Builder → Prop
  | new : Reachable d (Builder.new d)
  | step {b : Builder} (s : Step) : Reachable d b → Reachable d (b.step s).1

@[simp] theorem diagram_finish (b : Builder) :
    b.finish.1.diagram = b.diagram := by
  unfold finish
  split <;> rfl

@[simp] theorem draftOf_finish (b : Builder) (name : String) :
    b.finish.1.draftOf name = b.draftOf name := by
  unfold finish
  split <;> rfl

/-- No step changes the diagram. -/
theorem diagram_step (b : Builder) (s : Step) :
    (b.step s).1.diagram = b.diagram := by
  cases s with
  | draft name => rfl
  | entity e => rfl
  | relation r => exact b.diagram_relate r
  | line text =>
      unfold step
      simp only
      split
      · exact b.diagram_relate _
      · rfl
      · rfl
  | set name property schema required => rfl
  | describe name line => rfl
  | resolve type => rfl
  | build => exact (b.load.diagram_finish).trans b.diagram_load
  | finish => exact b.diagram_finish

/-- No step changes the diagram. -/
theorem Reachable.diagram_eq {d : Diagram} {b : Builder} (h : Reachable d b) :
    b.diagram = d := by
  induction h with
  | new => rfl
  | step s _ ih => rw [diagram_step, ih]

variable {P : Draft → Prop} {b : Builder}

/-- An update that keeps a property of drafts. -/
theorem forall_draftOf_updateDraft (hb : ∀ name, P (b.draftOf name))
    {name : String} {f : Draft → Draft} (hf : ∀ {d}, P d → P (f d)) :
    ∀ other, P ((b.updateDraft name f).draftOf other) := by
  intro other
  rw [draftOf_updateDraft]
  split
  · exact hf (hb name)
  · exact hb other

/-- A property of drafts that writes and notes keep is kept by a relation. -/
theorem forall_draftOf_relate (hP : Draft.Kept P)
    (hb : ∀ name, P (b.draftOf name)) (r : Relation) :
    ∀ name, P ((b.relate r).draftOf name) := by
  intro name
  rw [draftOf_relate]
  split
  · exact hP.takeAll (hb name) _
  · exact hb name

/-- It is kept by loading the diagram. -/
theorem forall_draftOf_load (hP : Draft.Kept P)
    (hb : ∀ name, P (b.draftOf name)) : ∀ name, P (b.load.draftOf name) := by
  intro name
  unfold load
  simp only
  rw [draftOf_foldl_relate, draftOf_foldl_writeEntity]
  exact hP.takeAll (hP.noteAll (hP.takeAll (hb name) _) _) _

/-- A step keeps what writes and lines keep. -/
theorem forall_draftOf_step (hP : Draft.Kept P)
    (hb : ∀ name, P (b.draftOf name)) (s : Step) :
    ∀ name, P ((b.step s).1.draftOf name) := by
  cases s with
  | draft name => exact forall_draftOf_updateDraft hb id
  | entity e =>
      intro name
      change P ((b.writeEntity e).draftOf name)
      rw [draftOf_writeEntity]
      split
      · exact hP.noteAll (hP.takeAll (hb name) _) _
      · exact hb name
  | relation r => exact forall_draftOf_relate hP hb r
  | line text =>
      unfold step
      simp only
      split
      · exact forall_draftOf_relate hP hb _
      · exact hb
      · exact hb
  | set name property schema required =>
      exact forall_draftOf_updateDraft hb (hP.write property schema required)
  | describe name line => exact forall_draftOf_updateDraft hb (hP.describe line)
  | resolve type => exact hb
  | build =>
      -- finishing reads the drafts and leaves them as they are
      intro name
      change P (b.load.finish.1.draftOf name)
      rw [draftOf_finish]
      exact forall_draftOf_load hP hb name
  | finish =>
      intro name
      change P (b.finish.1.draftOf name)
      rw [draftOf_finish]
      exact hb name

/-- Every draft of a reachable builder has what writes and lines keep. -/
theorem Reachable.draftOf {d : Diagram} (h : Reachable d b)
    (hP : Draft.Kept P) (name : String) : P (b.draftOf name) := by
  induction h generalizing name with
  | new => exact hP.blank
  | step s _ ih => exact forall_draftOf_step hP ih s name

end Builder

end ApiScaffold
