/-
Files after a history of changes. What a change did before it failed
stays done, so a property of files outlives a history only if every
single write keeps it, in the parts of a change that succeed and in those
that are given up (`Change.Keeps`).

The property that reading relies on is that no place has two entries.
With it an entry of the list is what a look at its place finds
(`FileTree.file?_eq_some_iff`), which makes the files of a folder, read
off the list, the files that paths lead to.
-/
import ApiScaffold.Files.Tree
import Mathlib.Data.List.Nodup

namespace ApiScaffold

-- ======================================================= kept properties

namespace Change

variable {α β : Type} {P : FileTree → Prop}

/-- The files after a change, whether it succeeds or fails. -/
def after (change : Change α) (t : FileTree) : FileTree :=
  ((ExceptT.run change).run t).2

/-- A change keeps a property of files, whether it succeeds or fails. -/
def Keeps (P : FileTree → Prop) (change : Change α) : Prop :=
  ∀ t, P t → P (change.after t)

/-- A change that fails at once keeps every property. -/
theorem Keeps.throw (fault : PathFault) : Keeps P (throw fault : Change α) :=
  fun _ ht => ht

/-- A change that goes on after another: the files are those of the first
where it fails, and those of the second otherwise. -/
theorem Keeps.bind {change : Change α} {next : α → Change β}
    (hchange : Keeps P change) (hnext : ∀ a, Keeps P (next a)) :
    Keeps P (change >>= next) := by
  intro t ht
  have hafter := hchange t ht
  unfold after at hafter ⊢
  rw [ExceptT.run_bind, StateT.run_bind]
  generalize (ExceptT.run change).run t = done at hafter ⊢
  obtain ⟨result, t'⟩ := done
  cases result with
  | error fault => exact hafter
  | ok a => exact hnext a t' hafter

/-- What is written may depend on the files that are there. -/
theorem Keeps.get_bind {next : FileTree → Change β}
    (hnext : ∀ t, P t → P ((next t).after t)) :
    Keeps P ((get : Change FileTree) >>= next) := hnext

/-- What is done before a failure is kept, and what is done about it. -/
theorem Keeps.tryCatch {change : Change α} {handle : PathFault → Change α}
    (hchange : Keeps P change) (hhandle : ∀ fault, Keeps P (handle fault)) :
    Keeps P (tryCatch change handle) := by
  intro t ht
  have hafter := hchange t ht
  unfold after at hafter ⊢
  rw [ExceptT.run_tryCatch, StateT.run_bind]
  generalize (ExceptT.run change).run t = done at hafter ⊢
  obtain ⟨result, t'⟩ := done
  cases result with
  | error fault => exact hhandle fault t' hafter
  | ok a => exact hafter

/-- Looking for a place changes nothing. -/
theorem Keeps.locate (start : Place) (parts : List String) :
    Keeps P (locate start parts) := by
  refine Keeps.get_bind fun t ht => ?_
  split
  · exact ht
  · exact ht

/-- Keeping a property comes down to single writes and removals. -/
structure KeptByWrites (P : FileTree → Prop) : Prop where
  put : ∀ {t} place entry, P t → P (t.put place entry)
  erase : ∀ {t} place, P t → P (t.erase place)

namespace KeptByWrites

/-- Making a folder is one write at most. -/
theorem makeFolder (hP : KeptByWrites P) (start : Place) (parts : List String) :
    Keeps P (makeFolder start parts) := by
  refine (Keeps.locate start parts).bind fun place => Keeps.get_bind fun t ht => ?_
  split
  · exact ht
  · exact hP.put place .folder ht

/-- Asking whether a place is a folder changes nothing. -/
theorem unlessFolder (start : Place) (parts : List String) (fault : PathFault) :
    Keeps P (unlessFolder start parts fault) := by
  refine Keeps.get_bind fun t ht => ?_
  split
  · split
    · exact ht
    · exact ht
  · exact ht

/-- Folders are made one by one, each by a write. -/
theorem makeFoldersFrom (hP : KeptByWrites P) (start : Place)
    (reversed : List String) : Keeps P (makeFoldersFrom start reversed) := by
  induction reversed with
  | nil =>
      unfold Change.makeFoldersFrom
      refine (hP.makeFolder start _).tryCatch fun fault => ?_
      split
      · exact Keeps.throw _
      · exact Keeps.throw _
      · exact unlessFolder start _ _
  | cons last onTheWay ih =>
      unfold Change.makeFoldersFrom
      refine (hP.makeFolder start _).tryCatch fun fault => ?_
      split
      · refine ih.bind fun _ => (hP.makeFolder start _).tryCatch fun fault => ?_
        split
        · exact Keeps.throw _
        · exact unlessFolder start _ _
      · exact Keeps.throw _
      · exact unlessFolder start _ _

/-- Writing a file is one write at most. -/
theorem writeFile (hP : KeptByWrites P) (start : Place) (parts : List String)
    (content : ByteArray) : Keeps P (writeFile start parts content) := by
  refine (Keeps.locate start parts).bind fun place => Keeps.get_bind fun t ht => ?_
  split
  · exact ht
  · exact hP.put place (.file content) ht

/-- Removing a file is one removal at most. -/
theorem removeFile (hP : KeptByWrites P) (start : Place) (parts : List String) :
    Keeps P (removeFile start parts) := by
  refine (Keeps.locate start parts).bind fun place => Keeps.get_bind fun t ht => ?_
  split
  · exact ht
  · split
    · exact hP.erase place ht
    · exact ht

/-- Saving an entry makes its folders and then writes it. -/
theorem save (hP : KeptByWrites P) (start : Place) (parts : List String)
    (entry : FileEntry) : Keeps P (save start parts entry) := by
  cases entry with
  | folder => exact hP.makeFoldersFrom start parts.reverse
  | file content =>
      exact (hP.makeFoldersFrom start parts.dropLast.reverse).bind fun _ =>
        hP.writeFile start parts content

end KeptByWrites

end Change

-- ============================================================= histories

/-- What may happen to files from outside. -/
inductive FileStep where
  /-- A file is written, or a folder made, with the folders on the way. -/
  | write (path : String) (entry : FileEntry)
  /-- A file is taken away. -/
  | remove (path : String)

/-- The change of a step. -/
def FileStep.change : FileStep → Change Unit
  | .write path entry =>
    Change.save (FileTree.startOf (.ofText path)) (FilePath.ofText path).parts entry
  | .remove path =>
    Change.removeFile (FileTree.startOf (.ofText path)) (FilePath.ofText path).parts

namespace FileTree

/-- The files after steps, those included that fail. -/
def following (t : FileTree) (steps : List FileStep) : FileTree :=
  steps.foldl (fun t step => step.change.after t) t

/-- Every step of a history keeps what single writes keep. -/
theorem keeps_step {P : FileTree → Prop} (hP : Change.KeptByWrites P) (step : FileStep) :
    Change.Keeps P step.change := by
  cases step with
  | write path entry => exact hP.save _ _ entry
  | remove path => exact hP.removeFile _ _

/-- What single writes keep holds after any history. -/
theorem following_of_kept {P : FileTree → Prop} (hP : Change.KeptByWrites P)
    (steps : List FileStep) {t : FileTree} (ht : P t) : P (t.following steps) := by
  induction steps generalizing t with
  | nil => exact ht
  | cons step steps ih => exact ih (keeps_step hP step t ht)

-- ======================================================= distinct places

/-- No place has two entries. -/
def Distinct (t : FileTree) : Prop := (t.entries.map Prod.fst).Nodup

/-- An entry that is put brings no place but its own. -/
private theorem mem_places_putEntryAt {place p : Place} {entry : FileEntry}
    {es : List (Place × FileEntry)}
    (h : p ∈ (putEntryAt place entry es).map Prod.fst) :
    p = place ∨ p ∈ es.map Prod.fst := by
  induction es with
  | nil => exact .inl (List.mem_singleton.mp h)
  | cons e es ih =>
      unfold putEntryAt at h
      split at h
      next heq =>
        rcases List.mem_cons.mp h with h | h
        · exact .inl h
        · exact .inr (List.mem_cons_of_mem _ h)
      next hne =>
        rcases List.mem_cons.mp h with h | h
        · exact .inr (h ▸ List.mem_cons_self ..)
        · exact (ih h).imp id (List.mem_cons_of_mem _)

/-- An entry that is put leaves no place with two entries. -/
private theorem nodup_putEntryAt (place : Place) (entry : FileEntry)
    {es : List (Place × FileEntry)} (h : (es.map Prod.fst).Nodup) :
    ((putEntryAt place entry es).map Prod.fst).Nodup := by
  induction es with
  | nil => exact List.nodup_singleton place
  | cons e es ih =>
      obtain ⟨p, old⟩ := e
      rw [List.map_cons, List.nodup_cons] at h
      unfold putEntryAt
      split
      next heq =>
        subst heq
        exact List.nodup_cons.mpr h
      next hne =>
        refine List.nodup_cons.mpr ⟨fun hmem => ?_, ih h.2⟩
        exact (mem_places_putEntryAt hmem).elim hne h.1

/-- A write replaces what is at its place, and no write doubles one. -/
theorem kept_distinct : Change.KeptByWrites Distinct where
  put place entry ht := nodup_putEntryAt place entry ht
  erase _ ht := (List.filter_sublist.map Prod.fst).nodup ht

/-- Each place has one entry after any history that begins with no files. -/
theorem distinct_following (steps : List FileStep) :
    (empty.following steps).Distinct :=
  following_of_kept kept_distinct steps List.nodup_nil

/-- A look at a place finds a file exactly if the file is among the
entries. -/
theorem file?_eq_some_iff {t : FileTree} (ht : t.Distinct) {place : Place}
    {content : ByteArray} :
    t.file? place = some content ↔ (place, .file content) ∈ t.entries := by
  have hlookup : t.file? place = some content ↔
      t.entries.lookup place = some (.file content) := by
    unfold file?
    split <;> simp_all
  rw [hlookup]
  unfold Distinct at ht
  generalize t.entries = es at ht
  induction es with
  | nil => simp
  | cons e es ih =>
      obtain ⟨p, entry⟩ := e
      rw [List.map_cons, List.nodup_cons] at ht
      rw [List.lookup_cons, List.mem_cons]
      by_cases hp : place = p
      · subst hp
        have hfirst : (place, .file content) ∉ es :=
          fun hmem => ht.1 (List.mem_map.mpr ⟨_, hmem, rfl⟩)
        simp [hfirst, eq_comm]
      · rw [beq_eq_false_iff_ne.mpr hp]
        simpa [hp] using ih ht.2

-- ===================================================== files of a folder

/-- The name and content of an entry that is a file directly in a
folder. -/
def fileIn? (folder : Place) : Place × FileEntry → Option (String × ByteArray)
  | (p, e) => match e, p.getLast? with
    | .file content, some name => if p.dropLast = folder then some (name, content) else none
    | _, _ => none

theorem filesIn_eq (t : FileTree) (folder : Place) :
    t.filesIn folder = t.entries.filterMap (fileIn? folder) := rfl

/-- An entry is a file of a folder exactly if it stands at the place of its name there. -/
theorem fileIn?_eq_some_iff {folder : Place} {e : Place × FileEntry} {name : String}
    {content : ByteArray} :
    fileIn? folder e = some (name, content) ↔ e = (folder ++ [name], .file content) := by
  obtain ⟨p, entry⟩ := e
  cases entry with
  | folder => simp [fileIn?]
  | file found =>
      rcases List.eq_nil_or_concat p with rfl | ⟨p, last, rfl⟩
      · simp [fileIn?]
      · simp [fileIn?, and_assoc]

/-- The files of a folder, read off the entries, are those found at the
places directly in it. -/
theorem mem_filesIn_iff {t : FileTree} (ht : t.Distinct) {folder : Place}
    {name : String} {content : ByteArray} :
    (name, content) ∈ t.filesIn folder ↔ t.file? (folder ++ [name]) = some content := by
  rw [file?_eq_some_iff ht, filesIn_eq, List.mem_filterMap]
  simp only [fileIn?_eq_some_iff, exists_eq_right]

/-- Different files of a folder have different names. -/
theorem nodup_names_filesIn {t : FileTree} (ht : t.Distinct) (folder : Place) :
    ((t.filesIn folder).map Prod.fst).Nodup := by
  unfold Distinct List.Nodup at ht
  unfold List.Nodup
  rw [List.pairwise_map] at ht ⊢
  refine ht.filterMap (fileIn? folder) fun e e' hne f hf f' hf' heq => hne ?_
  rw [fileIn?_eq_some_iff.mp hf, fileIn?_eq_some_iff.mp hf', heq]

end FileTree

end ApiScaffold
