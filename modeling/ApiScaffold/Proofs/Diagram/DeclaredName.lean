/-
Declared names are identifiers. A header takes for its name the identifier
characters behind its keyword, at least one (`Header.isName_of_find?`), and a
block takes the name of its header. The zone of a walk is where a header is
kept until its block is closed, so that is the invariant: the header of a
zone has a name, and with it the block of every mark (`NamedWalk`).
-/
import ApiScaffold.Proofs.Diagram.Printed

namespace ApiScaffold

-- ============================================================== headers

namespace Header

variable {s : List Char} {h : Header}

/-- The header of a keyword has a name. -/
theorem isName_of_ofKeyword? {k : Keyword} (hh : ofKeyword? k s = some h) :
    IsName h.name := by
  unfold ofKeyword? at hh
  split at hh
  next =>
    split at hh
    next => cases hh
    next c rest _ =>
      simp only at hh
      split at hh
      next hheader =>
        injection hh with hh
        subst hh
        simp only [Bool.and_eq_true, Bool.not_eq_true', List.isEmpty_eq_false_iff]
          at hheader
        exact ⟨hheader.1.2, fun d hd => List.mem_takeWhile_imp hd⟩
      next => cases hh
  next => cases hh

/-- A header that is found has a name. -/
theorem isName_of_findFrom? {joined : Bool} (hh : findFrom? joined s = some h) :
    IsName h.name := by
  induction s generalizing joined with
  | nil => cases hh
  | cons c s ih =>
      unfold findFrom? at hh
      split at hh
      next h' hwhole =>
        injection hh with hh
        subst hh
        split at hwhole
        next => cases hwhole
        next =>
          obtain ⟨k, -, hk⟩ := List.exists_of_findSome?_eq_some hwhole
          exact isName_of_ofKeyword? hk
      next => exact ih hh

/-- The header of a text has a name. -/
theorem isName_of_find? (hh : find? s = some h) : IsName h.name :=
  isName_of_findFrom? hh

end Header

-- ============================================================== the walk

/-- The header of the block that a zone is in, if there is one, has a
name. -/
def Zone.Named : Zone → Prop
  | .inside (some h) _ => IsName h.name
  | _ => True

/-- A walk that ends in a zone with a name and whose blocks have names. -/
structure NamedWalk (r : Zone × List (Nat × Mark)) : Prop where
  zone : r.1.Named
  blocks : ∀ m ∈ r.2, ∀ b ∈ m.2.block?, IsName b.name

namespace Zone.Named

variable {zone : Zone}

/-- A block opened under the header that was found is named. -/
theorem inside_find? {s content : List Char} :
    (Zone.inside (Header.find? s) content).Named := by
  cases hfind : Header.find? s with
  | none => trivial
  | some h => exact Header.isName_of_find? hfind

/-- A named zone stays so after one more character. -/
theorem push (h : zone.Named) (c : Char) : (zone.push c).Named := by
  match zone with
  | .outside pending => trivial
  | .inside none content => trivial
  | .inside (some header) content => exact h

/-- A named zone stays so over a comment line. -/
theorem passComment (h : zone.Named) (line : List Char) :
    (zone.passComment line).Named := by
  match zone with
  | .outside pending => trivial
  | .inside none content => trivial
  | .inside (some header) content => exact h

/-- A brace leaves names, and the block that it completes has one. -/
theorem brace (h : zone.Named) (c : Char) :
    (zone.brace c).1.Named
      ∧ ∀ m ∈ (zone.brace c).2, ∀ b ∈ m.block?, IsName b.name := by
  match zone with
  | .outside pending =>
      unfold Zone.brace
      simp only
      split
      · exact ⟨inside_find?, by rintro m ⟨⟩ b ⟨⟩⟩
      · exact ⟨trivial, by rintro m ⟨⟩⟩
  | .inside none content =>
      unfold Zone.brace
      simp only
      split
      · split
        next header hfind =>
          exact ⟨Header.isName_of_find? hfind, by rintro m ⟨⟩ b ⟨⟩⟩
        next => exact ⟨trivial, by rintro m ⟨⟩⟩
      · exact ⟨trivial, by rintro m ⟨⟩ b ⟨⟩⟩
  | .inside (some header) content =>
      unfold Zone.brace
      simp only
      split
      · exact ⟨h, by rintro m ⟨⟩⟩
      · refine ⟨trivial, ?_⟩
        rintro m ⟨⟩ b ⟨⟩
        exact h

end Zone.Named

/-- A walk over characters completes named blocks only. -/
theorem namedWalk_scanChars {zone : Zone} (h : zone.Named) (cs : List Char)
    (quoted : Bool) (skip offset : Nat) :
    NamedWalk (scanChars quoted skip offset zone cs) := by
  induction cs generalizing zone quoted skip offset with
  | nil => exact ⟨h, fun m hm => by cases hm⟩
  | cons c cs ih =>
      rw [scanChars_cons]
      split
      next => exact ih (h.push c) _ _ _
      next =>
        obtain ⟨hzone, hmark⟩ := h.brace c
        obtain ⟨hlast, hblocks⟩ := ih hzone false 0 (offset + 1)
        refine ⟨hlast, fun m hm => ?_⟩
        rcases List.mem_append.mp hm with hm | hm
        · obtain ⟨m', hm', rfl⟩ := Option.map_eq_some_iff.mp
            (Option.mem_toList.mp hm)
          exact hmark m' hm'
        · exact hblocks m hm

/-- A walk over lines completes named blocks only. -/
theorem namedWalk_scanLines {zone : Zone} (h : zone.Named)
    (ls : List (List Char)) (offset : Nat) :
    NamedWalk (scanLines offset zone ls) := by
  induction ls generalizing zone offset with
  | nil => exact ⟨h, fun m hm => by cases hm⟩
  | cons line ls ih =>
      have hline : NamedWalk (scanLine offset zone line) := by
        unfold scanLine
        split
        · exact ⟨h.passComment line, fun m hm => by cases hm⟩
        · exact namedWalk_scanChars h line false 0 offset
      obtain ⟨hlast, hblocks⟩ :=
        ih (hline.zone.push '\n') (offset + line.length + 1)
      rw [scanLines]
      refine ⟨hlast, fun m hm => ?_⟩
      rcases List.mem_append.mp hm with hm | hm
      · exact hline.blocks m hm
      · exact hblocks m hm

-- ============================================================== diagrams

/-- The name of a block is an identifier. -/
theorem isName_of_mem_blocksIn {text : List Char} {b : Block}
    (hb : b ∈ blocksIn text) : IsName b.name := by
  obtain ⟨m, hm, hblock⟩ := List.mem_filterMap.mp hb
  have hstart : (Zone.outside []).Named := trivial
  have hwalk : NamedWalk (scanText text) := namedWalk_scanLines hstart _ 0
  exact hwalk.blocks m hm b hblock

/-- What a text declares are its blocks. -/
theorem Diagram.eq_ofParts_of_parse {text : String} {d : Diagram}
    (h : Diagram.parse text = .ok d) :
    d = .ofParts (blocksIn (normalize text.toList)) d.relations := by
  unfold Diagram.parse Diagram.ofNormalized at h
  cases hrelations : findRelations (normalize text.toList) with
  | error e =>
      rw [hrelations] at h
      cases h
  | ok rs =>
      rw [hrelations] at h
      injection h with h
      rw [← h]
      rfl

/-- A block of a class or interface is read as one. -/
theorem Diagram.exists_ofBlock_mem_entities {text : String} {d : Diagram}
    (h : Diagram.parse text = .ok d) {b : Block}
    (hb : b ∈ blocksIn (normalize text.toList))
    (hkeyword : b.keyword ≠ .enumBlock) :
    ∃ kind, Entity.ofBlock kind b ∈ d.entities := by
  have hmem : ∀ k, b.keyword = k →
      b ∈ Diagram.blocksOf k (blocksIn (normalize text.toList)) :=
    fun k hk => List.mem_filter.mpr ⟨hb, beq_iff_eq.mpr hk⟩
  rw [Diagram.eq_ofParts_of_parse h]
  cases hk : b.keyword with
  | classBlock =>
      exact ⟨.classEntity, List.mem_append_left _
        (List.mem_map_of_mem (hmem _ hk))⟩
  | interfaceBlock =>
      exact ⟨.interfaceEntity, List.mem_append_right _
        (List.mem_map_of_mem (hmem _ hk))⟩
  | enumBlock => exact absurd hk hkeyword

/-- Every name that a text declares is an identifier. -/
theorem Diagram.isName_of_mem_declaredNames {text : String} {d : Diagram}
    (h : Diagram.parse text = .ok d) {name : String}
    (hname : name ∈ d.declaredNames) : IsName name.toList := by
  have hblock : ∀ b ∈ blocksIn (normalize text.toList),
      IsName (String.ofList b.name).toList := by
    intro b hb
    rw [String.toList_ofList]
    exact isName_of_mem_blocksIn hb
  rw [Diagram.eq_ofParts_of_parse h] at hname
  unfold Diagram.declaredNames Diagram.entityNames Diagram.entities
    Diagram.ofParts at hname
  simp only [List.map_append, List.map_map, List.mem_append, List.mem_map] at hname
  rcases hname with (⟨b, hb, rfl⟩ | ⟨b, hb, rfl⟩) | ⟨b, hb, rfl⟩ <;>
    exact hblock b (List.mem_filter.mp hb).1

-- ============================================================ attributes

/-- The attribute of a line takes the identifier that it starts with for its
name. -/
theorem Member.isName_of_readAttribute? {access : Access} {s : List Char} {a : Attribute}
    (h : Member.readAttribute? access s = some a) : IsName a.name.toList := by
  unfold Member.readAttribute? at h
  simp only at h
  split at h
  next => cases h
  next hne =>
    injection h with h
    subst h
    show IsName (String.ofList (s.takeWhile isWord)).toList
    rw [String.toList_ofList]
    exact ⟨hne, fun c hc => List.mem_takeWhile_imp hc⟩

/-- Every attribute that is read has a name. -/
theorem isName_of_mem_attributesOf {body : List Char} {a : Attribute}
    (ha : a ∈ attributesOf body) : IsName a.name.toList := by
  obtain ⟨m, hm, hattribute⟩ := List.mem_filterMap.mp ha
  obtain ⟨line, -, hline⟩ := List.mem_filterMap.mp hm
  unfold Member.ofLine? at hline
  simp only at hline
  split at hline
  next =>
    obtain ⟨method, -, rfl⟩ := Option.map_eq_some_iff.mp hline
    cases hattribute
  next =>
    obtain ⟨a', ha', rfl⟩ := Option.map_eq_some_iff.mp hline
    injection hattribute with heq
    exact heq ▸ Member.isName_of_readAttribute? ha'

/-- The name of every attribute that a text declares is an identifier. -/
theorem Diagram.isName_of_mem_attributes {text : String} {d : Diagram}
    (h : Diagram.parse text = .ok d) {e : Entity} (he : e ∈ d.entities) {a : Attribute}
    (ha : a ∈ e.attributes) : IsName a.name.toList := by
  rw [Diagram.eq_ofParts_of_parse h] at he
  rcases List.mem_append.mp he with he | he <;>
    obtain ⟨b, -, rfl⟩ := List.mem_map.mp he <;>
    exact isName_of_mem_attributesOf ha

end ApiScaffold
