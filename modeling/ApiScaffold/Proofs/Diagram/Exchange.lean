/-
One line in place of another. Two texts that differ in a single line declare
the same if the walks over them stand, behind that line, where nothing that
may follow tells them apart (`Zone.SameAhead`): outside any block with texts
kept that end in the same header however they go on, inside a block with the
same header and bodies that declare the same however they go on, or inside a
block without a header, on last lines that are the same. Every step of the
two walks keeps this (`SameCourse.sideBySide`), and a block that is closed
under it declares the same in both.

Two lines without quotes and braces are only read, so for them it is a
question about the place in which they stand (`map_declared_exchange`).
-/
import ApiScaffold.Proofs.Diagram.CommentLine

namespace ApiScaffold

-- =========================================================== declarations

/-- What a block declares. -/
def Block.declared (b : Block) : Entity ⊕ Enumeration :=
  match b.keyword with
  | .classBlock => .inl (.ofBlock .classEntity b)
  | .interfaceBlock => .inl (.ofBlock .interfaceEntity b)
  | .enumBlock => .inr (.ofBlock b)

/-- The entity of a kind that is declared, if one is. -/
def entityOfKind? (kind : EntityKind) : Entity ⊕ Enumeration → Option Entity
  | .inl e => if e.kind = kind then some e else none
  | .inr _ => none

/-- A diagram is made of what its blocks declare, kind by kind. -/
theorem Diagram.ofParts_eq (blocks : List Block) (relations : List Relation) :
    ofParts blocks relations = {
      classes := (blocks.map Block.declared).filterMap (entityOfKind? .classEntity)
      interfaces :=
        (blocks.map Block.declared).filterMap (entityOfKind? .interfaceEntity)
      enums := (blocks.map Block.declared).filterMap Sum.getRight?
      relations := relations } := by
  unfold ofParts blocksOf
  rw [List.filterMap_map, List.filterMap_map, List.filterMap_map]
  congr 1
  all_goals
    rw [← List.filterMap_eq_map, List.filterMap_filter]
    refine List.filterMap_congr fun b _ => ?_
    obtain ⟨keyword, name, body⟩ := b
    cases keyword <;> rfl

/-- What blocks declare makes the diagram. -/
theorem Diagram.ofParts_congr_declared {blocks blocks' : List Block}
    (h : blocks.map Block.declared = blocks'.map Block.declared)
    (relations : List Relation) :
    ofParts blocks relations = ofParts blocks' relations := by
  rw [ofParts_eq, ofParts_eq, h]

-- ============================================================== the walks

/-- Two zones that nothing which may follow tells apart. -/
inductive Zone.SameAhead : Zone → Zone → Prop
  | outside {p p' : List Char}
      (h : ∀ s, Header.find? (p.reverse ++ s) = Header.find? (p'.reverse ++ s)) :
      SameAhead (.outside p) (.outside p')
  | unheaded {x x' : List Char} (h : Zone.lastLine x = Zone.lastLine x') :
      SameAhead (.inside none x) (.inside none x')
  | body {header : Header} {x x' : List Char}
      (h : ∀ s, (Block.mk header.keyword header.name (x.reverse ++ s)).declared
        = (Block.mk header.keyword header.name (x'.reverse ++ s)).declared) :
      SameAhead (.inside (some header) x) (.inside (some header) x')

namespace Zone.SameAhead

variable {z z' : Zone}

theorem refl (z : Zone) : SameAhead z z := by
  match z with
  | .outside _ => exact .outside fun _ => rfl
  | .inside none _ => exact .unheaded rfl
  | .inside (some _) _ => exact .body fun _ => rfl

/-- Zones with the same ahead are outside any block alike. -/
theorem isOutside_eq (h : SameAhead z z') : z.isOutside = z'.isOutside := by
  cases h <;> rfl

/-- Texts with the same last line still have it with one more character. -/
theorem lastLine_cons_congr {x x' : List Char} (h : lastLine x = lastLine x')
    (c : Char) : lastLine (c :: x) = lastLine (c :: x') := by
  unfold lastLine at h ⊢
  rw [List.takeWhile_cons, List.takeWhile_cons, List.reverse_injective h]

/-- Zones with the same ahead still have it after one more character. -/
theorem push (h : SameAhead z z') (c : Char) :
    SameAhead (z.push c) (z'.push c) := by
  cases h with
  | @outside p p' h =>
      refine .outside fun s => ?_
      have hmore := h (c :: s)
      rwa [List.append_cons, List.append_cons p'.reverse, ← List.reverse_cons,
        ← List.reverse_cons] at hmore
  | @unheaded x x' h => exact .unheaded (lastLine_cons_congr h c)
  | @body header x x' h =>
      refine .body fun s => ?_
      have hmore := h (c :: s)
      rwa [List.append_cons, List.append_cons x'.reverse, ← List.reverse_cons,
        ← List.reverse_cons] at hmore

/-- Zones with the same ahead still have it after any more text. -/
theorem pushAll (h : SameAhead z z') (s : List Char) :
    SameAhead (z.pushAll s) (z'.pushAll s) := by
  induction s generalizing z z' with
  | nil => exact h
  | cons c s ih => exact ih (h.push c)

/-- A comment line ends a header text, and joins a body. -/
theorem passComment (h : SameAhead z z') (line : List Char) :
    SameAhead (z.passComment line) (z'.passComment line) := by
  have hinside : ∀ header x, (Zone.inside header x).passComment line
      = (Zone.inside header x).pushAll line := fun header x =>
    (Zone.pushAll_inside line header x).symm
  cases h with
  | outside => exact .outside fun _ => rfl
  | unheaded h =>
      rw [hinside, hinside]
      exact pushAll (.unheaded h) line
  | body h =>
      rw [hinside, hinside]
      exact pushAll (.body h) line

/-- A brace does the same to both, and the blocks that it completes declare
the same. -/
theorem brace (h : SameAhead z z') {c : Char} (hc : Header.isBrace c = true) :
    SameAhead (z.brace c).1 (z'.brace c).1
      ∧ ((z.brace c).2.bind Mark.block?).map Block.declared
        = ((z'.brace c).2.bind Mark.block?).map Block.declared := by
  cases h with
  | @outside p p' h =>
      rcases eq_of_isBrace hc with rfl | rfl
      · have hfind := h []
        rw [List.append_nil, List.append_nil] at hfind
        rw [Zone.brace_outside_open, Zone.brace_outside_open, hfind]
        exact ⟨refl _, rfl⟩
      · exact ⟨push (.outside h) _, rfl⟩
  | @unheaded x x' h =>
      rcases eq_of_isBrace hc with rfl | rfl
      · cases hown : Header.find? (lastLine x) with
        | none =>
            rw [Zone.brace_unheaded_open hown, Zone.brace_unheaded_open (h ▸ hown)]
            exact ⟨push (.unheaded h) _, rfl⟩
        | some header =>
            rw [Zone.brace_unheaded_reopen hown,
              Zone.brace_unheaded_reopen (h ▸ hown)]
            exact ⟨refl _, rfl⟩
      · exact ⟨refl _, rfl⟩
  | @body header x x' h =>
      rcases eq_of_isBrace hc with rfl | rfl
      · exact ⟨push (.body h) _, rfl⟩
      · have hblock := h []
        rw [List.append_nil, List.append_nil] at hblock
        exact ⟨refl _, congrArg some hblock⟩

end Zone.SameAhead

/-- Two walks that nothing which may follow tells apart, and that have met
blocks which declare the same. -/
structure SameCourse (w w' : Course) : Prop where
  quoted : w.quoted = w'.quoted
  skip : w.skip = w'.skip
  zones : w.zone.SameAhead w'.zone
  declared : (blocksAmong w.past).map Block.declared
    = (blocksAmong w'.past).map Block.declared

namespace SameCourse

variable {w w' : Course}

/-- One character keeps two walks on the same course. -/
theorem step (h : SameCourse w w') (offset offset' : Nat) (c : Char)
    (cs : List Char) :
    SameCourse (w.step offset c cs) (w'.step offset' c cs) := by
  rcases Course.step_together h.quoted h.skip h.zones.isOutside_eq offset offset'
      c cs with ⟨quoted, skip, hread, hread'⟩ | ⟨hc, hmeet, hmeet'⟩
  · rw [hread, hread']
    exact ⟨rfl, rfl, h.zones.push c, h.declared⟩
  · rw [hmeet, hmeet']
    obtain ⟨hzones, hblock⟩ := h.zones.brace hc
    refine ⟨rfl, rfl, hzones, ?_⟩
    rw [blocksAmong_mark, blocksAmong_mark, List.map_append, List.map_append,
      h.declared, ← Option.toList_map, ← Option.toList_map, hblock]

/-- A line break keeps two walks on the same course. -/
theorem newLine (h : SameCourse w w') : SameCourse w.newLine w'.newLine :=
  ⟨rfl, rfl, h.zones.push '\n', h.declared⟩

/-- Two walks stay on the same course over the same lines. -/
theorem sideBySide (text : List Char) (marks : List (Nat × Mark)) (shift : Nat) :
    SideBySide text marks shift (fun _ w w' => SameCourse w w')
      (fun _ w w' _ => SameCourse w w') where
  start _ _ _ _ _ h := h
  step _ _ _ c cs _ _ _ _ h := h.step _ _ c cs
  finish _ _ _ _ h := h.newLine
  comment _ _ _ line _ _ _ h :=
    newLine ⟨h.quoted, h.skip, h.zones.passComment line, h.declared⟩

/-- Over the same lines the walks meet blocks that declare the same, wherever
these lines begin. -/
theorem declared_runLines (h : SameCourse w w') {ls : List (List Char)}
    (hls : ∀ l ∈ ls, '\n' ∉ l) (offset offset' : Nat) :
    (blocksAmong (w.runLines offset ls).past).map Block.declared
      = (blocksAmong (w'.runLines offset' ls).past).map Block.declared := by
  have hself : SameCourse w w := ⟨rfl, rfl, .refl _, rfl⟩
  -- offsets only number the marks: both runs are compared with one that
  -- begins at the start of a text
  have hfrom : ∀ {v : Course}, SameCourse w v → ∀ shift,
      SameCourse (w.runLines 0 ls) (v.runLines shift ls) := by
    intro v hv shift
    have hstart : lastPart [] = [] := rfl
    have hrun := (sideBySide (ls.flatMap (· ++ ['\n'])) (w.runLines 0 ls).past
      shift).runLines hv rfl hstart hls List.prefix_rfl
    rwa [List.length_nil, Nat.zero_add] at hrun
  exact (hfrom hself offset).declared.symm.trans (hfrom h offset').declared

end SameCourse

-- =========================================================== the exchange

section exchange

variable {t t' l l' : List Char} {above below : List (List Char)}

/-- A line without quotes and braces that is no comment is only read. -/
theorem Course.runLines_plain {l : List Char} (hl : Plain l)
    (hcomment : isComment l = false) {w : Course} (hquoted : w.quoted = false)
    (hskip : w.skip = 0) (offset : Nat) :
    w.runLines offset [l] = ⟨false, 0, (w.zone.pushAll l).push '\n', w.past⟩ := by
  obtain ⟨hzone, hpast⟩ := w.runChars_eq offset l
  rw [hquoted, hskip, scanChars_of_inert hl.inert] at hzone hpast
  rw [List.append_nil] at hpast
  rw [runLines, if_neg (by simp [hcomment]), runLines]
  unfold newLine
  rw [hzone, hpast]

/-- Texts declare the same with one line or another, if nothing that may
follow tells apart where the walk stands behind them. -/
theorem map_declared_exchange (hlines : lines t = above ++ l :: below)
    (hlines' : lines t' = above ++ l' :: below)
    (hl : Plain l) (hcomment : isComment l = false)
    (hl' : Plain l') (hcomment' : isComment l' = false)
    (h : (((walkOver above).zone.pushAll l).push '\n').SameAhead
      (((walkOver above).zone.pushAll l').push '\n')) :
    (blocksIn t).map Block.declared = (blocksIn t').map Block.declared := by
  obtain ⟨hquoted, hskip⟩ := walkOver_fresh above
  have hbelow : ∀ m ∈ below, '\n' ∉ m := fun m hm =>
    not_mem_of_mem_pieces (show m ∈ lines t by rw [hlines]; simp [hm])
  have hrun : ∀ {s m : List Char}, lines s = above ++ m :: below → Plain m →
      isComment m = false → ∃ offset, blocksIn s
        = blocksAmong ((Course.mk false 0 (((walkOver above).zone.pushAll m).push '\n')
          (walkOver above).past).runLines offset below).past := by
    intro s m hs hm hmcomment
    have hwalk := congrArg Course.past (Course.runLines_text s)
    rw [hs, List.append_cons, Course.runLines_append, Course.runLines_append,
      ← walkOver, Course.runLines_plain hm hmcomment hquoted hskip] at hwalk
    exact ⟨_, congrArg blocksAmong hwalk.symm⟩
  obtain ⟨offset, hblocks⟩ := hrun hlines hl hcomment
  obtain ⟨offset', hblocks'⟩ := hrun hlines' hl' hcomment'
  have hcourse : SameCourse
      ⟨false, 0, ((walkOver above).zone.pushAll l).push '\n', (walkOver above).past⟩
      ⟨false, 0, ((walkOver above).zone.pushAll l').push '\n', (walkOver above).past⟩ :=
    ⟨rfl, rfl, h, rfl⟩
  rw [hblocks, hblocks']
  exact hcourse.declared_runLines hbelow offset offset'

end exchange

end ApiScaffold
