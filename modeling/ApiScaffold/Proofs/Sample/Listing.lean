/-
The library of samples against the files that are there. Whatever
happened to the files before, the library is readable exactly if its
folder exists and every sample file directly in it is UTF-8; it then lists
each of these files once, in the order of their names, and a look for an
identifier finds the listed sample with it.

The listing is sorted by names that are not equal (`sampleFiles_sorted`,
from the distinct places of `Files.History`), which makes it strictly
increasing; and an identifier with the ending of samples behind it is the
name (`withoutEnding?_eq_some_iff`), so the identifiers are distinct as
well.
-/
import ApiScaffold.Proofs.Files.History
import ApiScaffold.Sample.Library
import Mathlib

namespace ApiScaffold

-- ================================================ statement vocabulary

/-- A path that can lead somewhere: no name of a file or folder holds the
character zero. -/
def FilePath.IsUsable (p : FilePath) : Prop := ∀ part ∈ p.parts, '\x00' ∉ part.toList

namespace FileTree

/-- There is a folder at a path. -/
def HasFolderAt (t : FileTree) (p : FilePath) : Prop :=
  ∃ place, t.find p = .ok (place, .folder)

/-- A file with a name and a content lies directly in the folder at a
path. -/
def HoldsFile (t : FileTree) (p : FilePath) (name : String) (content : ByteArray) : Prop :=
  ∃ place, t.find p = .ok (place, .folder) ∧ t.file? (place ++ [name]) = some content

/-- What keeps the samples of a folder from being read: there is no
folder, or a sample file directly in it is no UTF-8. -/
def IsUnreadable (t : FileTree) (p : FilePath) : Prop :=
  ¬ t.HasFolderAt p ∨ ∃ id content,
    t.HoldsFile p (id ++ sampleEnding) content ∧ ¬ content.IsValidUTF8

/-- What the samples of a folder are to be. -/
structure Lists (t : FileTree) (p : FilePath) (samples : List Sample) : Prop where
  /-- Every listed sample is in a sample file directly in the folder. -/
  held : ∀ s ∈ samples, s.fileName = s.id ++ sampleEnding ∧
    s.label = sampleLabel s.fileName ∧
    ∃ content, t.HoldsFile p s.fileName content ∧ decodeText? content = some s.content
  /-- Every sample file directly in the folder is listed once. -/
  complete : ∀ id content, t.HoldsFile p (id ++ sampleEnding) content →
    ∃! s, s ∈ samples ∧ s.fileName = id ++ sampleEnding
  increasing : samples.Pairwise fun s s' => s.fileName < s'.fileName
  distinct : (samples.map Sample.id).Nodup

end FileTree

-- ============================================================== endings

/-- A name has the ending of samples exactly if it is its identifier with
the ending behind it. -/
theorem withoutEnding?_eq_some_iff {name id : String} :
    withoutEnding? name = some id ↔ name = id ++ sampleEnding := by
  unfold withoutEnding?
  simp only
  split
  next h =>
    rw [List.isPrefixOf_iff_prefix, List.reverse_prefix] at h
    obtain ⟨front, hfront⟩ := h
    have hdrop : (name.toList.reverse.drop sampleEnding.toList.reverse.length).reverse
        = front := by
      rw [← hfront, List.reverse_append, List.drop_left, List.reverse_reverse]
    rw [hdrop, Option.some_inj]
    constructor
    · rintro rfl
      rw [← String.toList_inj, String.toList_append, String.toList_ofList, hfront]
    · rintro rfl
      rw [String.toList_append] at hfront
      rw [List.append_cancel_right hfront, String.ofList_toList]
  next h =>
    simp only [reduceCtorEq, false_iff]
    rintro rfl
    rw [List.isPrefixOf_iff_prefix, List.reverse_prefix, String.toList_append] at h
    exact h (List.suffix_append ..)

-- ============================================================== listing

variable {files : List (String × ByteArray)}

theorem mem_sampleFiles_iff {id name : String} {content : ByteArray} :
    (id, name, content) ∈ sampleFiles files
      ↔ (name, content) ∈ files ∧ name = id ++ sampleEnding := by
  unfold sampleFiles
  rw [List.mem_mergeSort, List.mem_filterMap]
  constructor
  · rintro ⟨⟨name', content'⟩, hmem, hid⟩
    obtain ⟨id', hid', heq⟩ := Option.map_eq_some_iff.mp hid
    cases heq
    exact ⟨hmem, withoutEnding?_eq_some_iff.mp hid'⟩
  · rintro ⟨hmem, hname⟩
    exact ⟨_, hmem, Option.map_eq_some_iff.mpr
      ⟨id, withoutEnding?_eq_some_iff.mpr hname, rfl⟩⟩

/-- Sample files of different names stand in the order of their names. -/
theorem sampleFiles_sorted (h : (files.map Prod.fst).Nodup) :
    (sampleFiles files).Pairwise fun e e' => e.2.1 < e'.2.1 := by
  have hne : (sampleFiles files).Pairwise fun e e' => e.2.1 ≠ e'.2.1 := by
    unfold sampleFiles
    refine List.Pairwise.perm ?_ (List.mergeSort_perm ..).symm fun h => h.symm
    rw [List.Nodup, List.pairwise_map] at h
    refine h.filterMap _ fun e e' hne f hf f' hf' => ?_
    obtain ⟨_, _, rfl⟩ := Option.map_eq_some_iff.mp hf
    obtain ⟨_, _, rfl⟩ := Option.map_eq_some_iff.mp hf'
    exact hne
  have hle : (sampleFiles files).Pairwise fun e e' => e.2.1 ≤ e'.2.1 := by
    refine (List.pairwise_mergeSort ?_ ?_ _).imp fun h => of_decide_eq_true h
    · intro a b c hab hbc
      exact decide_eq_true (le_trans (of_decide_eq_true hab) (of_decide_eq_true hbc))
    · intro a b
      rw [Bool.or_eq_true]
      exact (le_total a.2.1 b.2.1).imp (decide_eq_true ·) (decide_eq_true ·)
  exact (hle.and hne).imp fun h => lt_of_le_of_ne h.1 h.2

/-- A file is a sample unless it is no text. -/
theorem Sample.ofFile?_eq_some_iff {id name : String} {content : ByteArray} {s : Sample} :
    Sample.ofFile? id name content = some s
      ↔ s.id = id ∧ s.fileName = name ∧ s.label = sampleLabel name
        ∧ decodeText? content = some s.content := by
  obtain ⟨id', fileName, label, text⟩ := s
  simp only [Sample.ofFile?, Option.map_eq_some_iff, Sample.mk.injEq]
  constructor
  · rintro ⟨_, htext, rfl, rfl, rfl, rfl⟩
    exact ⟨rfl, rfl, rfl, htext⟩
  · rintro ⟨rfl, rfl, rfl, htext⟩
    exact ⟨text, htext, rfl, rfl, rfl, rfl⟩

theorem decodeText?_eq_none_iff {content : ByteArray} :
    decodeText? content = none ↔ ¬ content.IsValidUTF8 := by
  unfold decodeText? String.fromUTF8?
  rw [Option.map_eq_none_iff, dite_eq_right_iff]
  simp

/-- What a reading of files gives, one sample for each file. -/
theorem forall₂_of_samplesOf? {entries : List (String × String × ByteArray)}
    {samples : List Sample} (h : samplesOf? entries = some samples) :
    List.Forall₂ (fun e s => Sample.ofFile? e.1 e.2.1 e.2.2 = some s) entries samples := by
  induction entries generalizing samples with
  | nil =>
      cases h
      exact .nil
  | cons e entries ih =>
      unfold samplesOf? at h
      split at h
      next s more hs hmore =>
        cases h
        exact .cons hs (ih hmore)
      next => cases h

theorem fileNames_of_forall₂ {entries : List (String × String × ByteArray)}
    {samples : List Sample}
    (h : List.Forall₂ (fun e s => Sample.ofFile? e.1 e.2.1 e.2.2 = some s) entries samples) :
    samples.map Sample.fileName = entries.map fun e => e.2.1 := by
  induction h with
  | nil => rfl
  | cons hfile _ ih =>
      rw [List.map_cons, List.map_cons, ih, (Sample.ofFile?_eq_some_iff.mp hfile).2.1]

theorem mem_iff_of_forall₂ {entries : List (String × String × ByteArray)}
    {samples : List Sample} {s : Sample}
    (h : List.Forall₂ (fun e s => Sample.ofFile? e.1 e.2.1 e.2.2 = some s) entries samples) :
    s ∈ samples ↔ ∃ e ∈ entries, Sample.ofFile? e.1 e.2.1 e.2.2 = some s := by
  induction h with
  | nil => simp
  | cons hfile _ ih => simp [ih, hfile, eq_comm]

/-- Reading fails at a file that is no text, and nowhere else. -/
theorem samplesOf?_eq_none_iff {entries : List (String × String × ByteArray)} :
    samplesOf? entries = none ↔ ∃ e ∈ entries, ¬ e.2.2.IsValidUTF8 := by
  induction entries with
  | nil => simp [samplesOf?]
  | cons e entries ih =>
      have hfirst : Sample.ofFile? e.1 e.2.1 e.2.2 = none ↔ ¬ e.2.2.IsValidUTF8 := by
        rw [Sample.ofFile?, Option.map_eq_none_iff, decodeText?_eq_none_iff]
      rw [List.exists_mem_cons_iff, ← hfirst, ← ih, samplesOf?]
      cases Sample.ofFile? e.1 e.2.1 e.2.2 with
      | none => simp
      | some s =>
          cases samplesOf? entries with
          | none => simp
          | some more => simp

-- ========================================================= the folder

namespace FileTree

variable {t : FileTree} {p : FilePath}

/-- Following a path of usable names fails for no character zero. -/
theorem foldlM_follow_ne_zeroCharacter (t : FileTree) (place : Place)
    (parts : List String) : parts.foldlM t.follow place ≠ .error .zeroCharacter := by
  induction parts generalizing place with
  | nil => simp [pure, Except.pure]
  | cons part parts ih =>
      rw [List.foldlM_cons]
      have hstep : t.follow place part ≠ .error .zeroCharacter := by
        unfold follow
        split
        · split <;> simp
        · split
          · simp
          · split <;> simp
      cases hfollow : t.follow place part with
      | error fault => exact fun h => hstep (hfollow.trans h)
      | ok next => exact ih next

/-- A usable path that leads to no folder cannot be listed, and not for a
character zero. -/
theorem exists_list_eq_error (hp : p.IsUsable) (h : ¬ t.HasFolderAt p) :
    ∃ fault, fault ≠ .zeroCharacter ∧ t.list p = .error fault := by
  have hlocate : t.locate (startOf p) p.parts ≠ .error .zeroCharacter := by
    have hparts : ¬ (p.parts.any fun part => part.contains '\x00') = true := by
      rw [List.any_eq_true]
      rintro ⟨part, hpart, hzero⟩
      exact hp part hpart (by simpa using hzero)
    unfold locate
    rw [if_neg hparts]
    exact foldlM_follow_ne_zeroCharacter t _ _
  unfold HasFolderAt find at h
  unfold list find
  cases hplace : t.locate (startOf p) p.parts with
  | error fault => exact ⟨fault, fun heq => hlocate (heq ▸ hplace), rfl⟩
  | ok place =>
      rw [hplace] at h
      simp only [bind, Except.bind, pure, Except.pure, throw, throwThe,
        MonadExceptOf.throw] at h ⊢
      by_cases hfolder : t.isFolder place = true
      · exact absurd ⟨place, by rw [if_pos hfolder]⟩ h
      · rw [if_neg hfolder]
        cases t.file? place with
        | none => exact ⟨.missing, by simp, rfl⟩
        | some content => exact ⟨.notFolder, by simp, rfl⟩

/-- A folder that is not there is no library. -/
theorem samples_of_not_hasFolderAt (hp : p.IsUsable) (h : ¬ t.HasFolderAt p) :
    t.samples p = .error unreadable := by
  obtain ⟨fault, hfault, hlist⟩ := exists_list_eq_error hp h
  unfold samples
  rw [hlist]
  split
  next heq => exact absurd (Except.error.inj heq) hfault
  next => rfl
  next heq => cases heq

/-- The samples of a folder that is there are those in its sample
files. -/
theorem samples_of_find {place : Place} (h : t.find p = .ok (place, .folder)) :
    t.samples p = match samplesOf? (sampleFiles (t.filesIn place)) with
      | some samples => .ok samples
      | none => .error unreadable := by
  unfold samples list
  rw [h]
  rfl

/-- With one folder at a path, its files are those found directly in
it. -/
theorem holdsFile_iff {place : Place} (h : t.find p = .ok (place, .folder))
    {name : String} {content : ByteArray} :
    t.HoldsFile p name content ↔ t.file? (place ++ [name]) = some content := by
  unfold HoldsFile
  constructor
  · rintro ⟨place', h', hfile⟩
    rw [h] at h'
    injection h' with heq
    injection heq with heq
    exact heq ▸ hfile
  · exact fun hfile => ⟨place, h, hfile⟩

-- ====================================================== what is listed

/-- The listed samples are in the sample files of the folder, one in
each. -/
theorem lists_of_samplesOf? (ht : t.Distinct) {place : Place}
    (h : t.find p = .ok (place, .folder)) {samples : List Sample}
    (hsamples : samplesOf? (sampleFiles (t.filesIn place)) = some samples) :
    t.Lists p samples := by
  have hread := forall₂_of_samplesOf? hsamples
  have hsorted := sampleFiles_sorted (nodup_names_filesIn ht place)
  have hincreasing : samples.Pairwise fun s s' => s.fileName < s'.fileName := by
    rw [← List.pairwise_map (f := Sample.fileName), fileNames_of_forall₂ hread,
      List.pairwise_map]
    exact hsorted
  have hname : ∀ s ∈ samples, s.fileName = s.id ++ sampleEnding := by
    intro s hs
    obtain ⟨e, he, hfile⟩ := (mem_iff_of_forall₂ hread).mp hs
    obtain ⟨hid, hfileName, -, -⟩ := Sample.ofFile?_eq_some_iff.mp hfile
    rw [hid, hfileName]
    exact (mem_sampleFiles_iff.mp he).2
  constructor
  case held =>
    intro s hs
    obtain ⟨e, he, hfile⟩ := (mem_iff_of_forall₂ hread).mp hs
    obtain ⟨-, hfileName, hlabel, htext⟩ := Sample.ofFile?_eq_some_iff.mp hfile
    refine ⟨hname s hs, hfileName ▸ hlabel, e.2.2, ?_, htext⟩
    rw [holdsFile_iff h, ← mem_filesIn_iff ht, hfileName]
    exact (mem_sampleFiles_iff.mp he).1
  case complete =>
    intro id content hfile
    rw [holdsFile_iff h, ← mem_filesIn_iff ht] at hfile
    obtain ⟨s, hs, hname'⟩ : ∃ s ∈ samples, s.fileName = id ++ sampleEnding := by
      have he := mem_sampleFiles_iff.mpr ⟨hfile, rfl⟩
      have hmem := List.mem_map_of_mem (f := fun e => e.2.1) he
      rw [← fileNames_of_forall₂ hread] at hmem
      exact List.mem_map.mp hmem
    refine ⟨s, ⟨hs, hname'⟩, fun s' ⟨hs', hname''⟩ => ?_⟩
    have hnodup : (samples.map Sample.fileName).Nodup :=
      List.pairwise_map.mpr (hincreasing.imp fun hlt => hlt.ne)
    exact List.inj_on_of_nodup_map hnodup hs' hs (hname''.trans hname'.symm)
  case increasing => exact hincreasing
  case distinct =>
    rw [List.Nodup, List.pairwise_map]
    refine hincreasing.imp_of_mem fun {s s'} hs hs' hlt heq => ?_
    rw [hname s hs, hname s' hs', heq] at hlt
    exact lt_irrefl _ hlt

/-- A library is unreadable at a file that is no text. -/
theorem samplesOf?_eq_none_iff_holdsFile (ht : t.Distinct) {place : Place}
    (h : t.find p = .ok (place, .folder)) :
    samplesOf? (sampleFiles (t.filesIn place)) = none
      ↔ ∃ id content, t.HoldsFile p (id ++ sampleEnding) content
          ∧ ¬ content.IsValidUTF8 := by
  rw [samplesOf?_eq_none_iff]
  constructor
  · rintro ⟨⟨id, name, content⟩, hmem, htext⟩
    obtain ⟨hfile, rfl⟩ := mem_sampleFiles_iff.mp hmem
    exact ⟨id, content, (holdsFile_iff h).mpr ((mem_filesIn_iff ht).mp hfile), htext⟩
  · rintro ⟨id, content, hfile, htext⟩
    rw [holdsFile_iff h, ← mem_filesIn_iff ht] at hfile
    exact ⟨_, mem_sampleFiles_iff.mpr ⟨hfile, rfl⟩, htext⟩

/-- A library is unreadable for a reason, and lists its samples
otherwise. -/
theorem samples_eq_or (ht : t.Distinct) (hp : p.IsUsable) :
    (t.samples p = .error unreadable ∧ t.IsUnreadable p)
      ∨ ∃ samples, t.samples p = .ok samples ∧ t.Lists p samples ∧ ¬ t.IsUnreadable p := by
  by_cases hfolder : t.HasFolderAt p
  · obtain ⟨place, hfind⟩ := hfolder
    have hbad := samplesOf?_eq_none_iff_holdsFile ht hfind
    rw [samples_of_find hfind]
    cases hread : samplesOf? (sampleFiles (t.filesIn place)) with
    | none => exact .inl ⟨rfl, .inr (hbad.mp hread)⟩
    | some samples =>
        refine .inr ⟨samples, rfl, lists_of_samplesOf? ht hfind hread, ?_⟩
        rintro (hno | hno)
        · exact hno ⟨place, hfind⟩
        · rw [hbad.mpr hno] at hread
          cases hread
  · exact .inl ⟨samples_of_not_hasFolderAt hp hfolder, .inl hfolder⟩

/-- Of a readable library, the sample with an identifier is the one
listed with it. -/
theorem sample_of_samples {samples : List Sample} (h : t.samples p = .ok samples)
    (hlists : t.Lists p samples) (id : String) :
    (∀ s, t.sample p id = .ok s ↔ s ∈ samples ∧ s.id = id)
      ∧ (t.sample p id = .error (.service
            { kind := .notFound, detail := "Fixture not found: " ++ id })
          ↔ ∀ s ∈ samples, s.id ≠ id) := by
  cases hfind : samples.find? fun s => s.id == id with
  | none =>
      have hsample : t.sample p id = .error (.service
          { kind := .notFound, detail := "Fixture not found: " ++ id }) := by
        simp only [sample, h, Except.bind, hfind]
      rw [hsample]
      rw [List.find?_eq_none] at hfind
      simp only [beq_iff_eq] at hfind
      exact ⟨fun s => by simpa using hfind s, by simpa using hfind⟩
  | some found =>
      have hsample : t.sample p id = .ok found := by
        simp only [sample, h, Except.bind, hfind]
      have hmem := List.mem_of_find?_eq_some hfind
      have hid : found.id = id := by simpa using List.find?_some hfind
      rw [hsample]
      refine ⟨fun s => ?_, ?_⟩
      · constructor
        · intro heq
          cases heq
          exact ⟨hmem, hid⟩
        · rintro ⟨hs, rfl⟩
          rw [List.inj_on_of_nodup_map hlists.distinct hmem hs hid]
      · simp only [reduceCtorEq, false_iff]
        exact fun hnone => hnone found hmem hid

/-- Listing and lookup of samples after any history of the files: the
library is unreadable exactly if its folder does not exist or a sample
file directly in it is no UTF-8, and otherwise lists each sample file
once, in the order of names; and a lookup fails as the listing does, finds
the listed sample with the identifier, and tells that there is none where
none is listed. -/
theorem library_follows_files (steps : List FileStep) {p : FilePath} (hp : p.IsUsable) :
    let t := empty.following steps
    (t.samples p = .error unreadable ↔ t.IsUnreadable p) ∧
    (t.samples p ≠ .error unreadable →
      ∃ samples, t.samples p = .ok samples ∧ t.Lists p samples) ∧
    ∀ id,
      (t.sample p id = .error unreadable ↔ t.samples p = .error unreadable) ∧
      ∀ samples, t.samples p = .ok samples →
        (∀ s, t.sample p id = .ok s ↔ s ∈ samples ∧ s.id = id) ∧
        (t.sample p id = .error (.service
            { kind := .notFound, detail := "Fixture not found: " ++ id })
          ↔ ∀ s ∈ samples, s.id ≠ id) := by
  intro t
  have ht : t.Distinct := distinct_following steps
  rcases samples_eq_or ht hp with ⟨hsamples, hwhy⟩ | ⟨samples, hsamples, hlists, hnot⟩
  · refine ⟨⟨fun _ => hwhy, fun _ => hsamples⟩, fun hne => absurd hsamples hne, fun id => ?_⟩
    have hsample : t.sample p id = .error unreadable := by
      unfold sample
      rw [hsamples]
      rfl
    refine ⟨⟨fun _ => hsamples, fun _ => hsample⟩, fun samples hok => ?_⟩
    rw [hsamples] at hok
    cases hok
  · have hne : t.samples p ≠ .error unreadable := by
      rw [hsamples]
      exact fun h => by cases h
    refine ⟨⟨fun h => absurd h hne, fun h => absurd h hnot⟩,
      fun _ => ⟨samples, hsamples, hlists⟩, fun id => ?_⟩
    obtain ⟨hok, hnone⟩ := sample_of_samples hsamples hlists id
    refine ⟨⟨fun h => ?_, fun h => absurd h hne⟩, fun samples' hsamples' => ?_⟩
    · by_cases hfound : ∃ s ∈ samples, s.id = id
      · obtain ⟨s, hs⟩ := hfound
        rw [(hok s).mpr hs] at h
        cases h
      · have hmissing := hnone.mpr fun s hs hid => hfound ⟨s, hs, hid⟩
        rw [hmissing] at h
        cases h
    · rw [hsamples] at hsamples'
      cases hsamples'
      exact ⟨hok, hnone⟩

/-- Two files, one in a folder inside and no text, and the removal of one
that was never there. -/
def nestedNames : List FileStep :=
  [.write "a.plant" (.file "class A {}".toUTF8), .write "b/c.plant" (.file ⟨#[0xFF]⟩),
   .remove "z.plant"]

/-- A file inside is neither listed nor found by its name, and the listing
does not fail at it. -/
theorem library_follows_files_of_nested_names :
    (FilePath.ofText ".").IsUsable
      ∧ ¬ (empty.following nestedNames).IsUnreadable (.ofText ".")
      ∧ (empty.following nestedNames).Lists (.ofText ".")
          [⟨"a", "a.plant", "A", "class A {}"⟩]
      ∧ (empty.following nestedNames).sample (.ofText ".") "c" = .error (.service
          { kind := .notFound, detail := "Fixture not found: c" }) := by
  have hp : (FilePath.ofText ".").IsUsable := by
    intro part hpart
    have hparts : (FilePath.ofText ".").parts = [] := by decide
    rw [hparts] at hpart
    cases hpart
  have hsamples : (empty.following nestedNames).samples (.ofText ".")
      = .ok [⟨"a", "a.plant", "A", "class A {}"⟩] := by cbv
  obtain ⟨hwhy, hread, hfind⟩ := library_follows_files nestedNames hp
  rw [hsamples] at hwhy hread
  have hne : (.ok [⟨"a", "a.plant", "A", "class A {}"⟩] : Outcome (List Sample))
      ≠ .error unreadable := fun h => by cases h
  obtain ⟨samples, hok, hlists⟩ := hread hne
  cases hok
  refine ⟨hp, fun hbad => hne (hwhy.mpr hbad), hlists, ?_⟩
  refine ((hfind "c").2 _ hsamples).2.mpr fun s hs => ?_
  rw [List.mem_singleton.mp hs]
  decide

end FileTree

end ApiScaffold
