/-
A walk over a text as a run of steps. `Course` is its state within a line:
whether a quote is open, how much of a modifier is still to be passed, the
zone, and the marks made so far. A character makes one step, a line break
ends quotes and modifiers, and a comment line is passed as a whole; the run
over the lines of a text is the walk (`runLines_start`).

Two walks that read the same lines, from different zones or at different
offsets, are compared step by step. `SideBySide` lists what a comparison has
to survive: the start of a line, a character, the end of a line, a comment
line. What survives each of these holds after any number of lines
(`SideBySide.runLines`). On the way each step is told where in the text it
stands and that the marks made so far begin those of the whole walk, so that
assumptions about the whole walk can be used in the middle of it.
-/
import ApiScaffold.Proofs.Diagram.OwnLine

namespace ApiScaffold

-- ========================================================== the last line

/-- Behind a line break the last line is empty. -/
theorem lastPart_append_break (s : List Char) : lastPart (s ++ ['\n']) = [] :=
  (parts_append_break s []).1

/-- Text without a line break stays on the last line. -/
theorem lastPart_append_of_not_mem {l : List Char} (h : '\n' ∉ l)
    (s : List Char) : lastPart (s ++ l) = lastPart s ++ l := by
  have hl : ∀ c ∈ l.reverse, decide (c ≠ '\n') = true := by
    intro c hc
    refine decide_eq_true fun heq => h ?_
    rw [← heq]
    exact List.mem_reverse.mp hc
  unfold lastPart Zone.lastLine
  rw [List.reverse_append, List.takeWhile_append_of_pos hl]
  simp

-- ======================================================== one character

/-- A walk with nothing to skip reads a character, wherever it stands; or it
meets a brace, which inside a block may start a modifier. -/
theorem scanStep_zero (quoted : Bool) (c : Char) (cs : List Char) :
    (∃ quoted', ∀ outside, scanStep quoted 0 outside c cs = some (quoted', 0))
      ∨ quoted = false ∧ Header.isBrace c = true ∧ ∀ outside,
        scanStep quoted 0 outside c cs
          = if c = '\x7b' && !outside then (modifierWidth? cs).map (false, ·)
            else none := by
  unfold scanStep
  simp only
  by_cases hquote : c = '"'
  · exact Or.inl ⟨!quoted, fun _ => if_pos hquote⟩
  · simp only [if_neg hquote]
    cases hplain : quoted || !Header.isBrace c with
    | true => exact Or.inl ⟨quoted, fun _ => rfl⟩
    | false =>
        simp only [Bool.or_eq_false_iff, Bool.not_eq_false'] at hplain
        exact Or.inr ⟨hplain.1, hplain.2, fun _ => rfl⟩

/-- What is not read is a brace. -/
theorem isBrace_of_scanStep {quoted outside : Bool} {skip : Nat} {c : Char}
    {cs : List Char} (h : scanStep quoted skip outside c cs = none) :
    Header.isBrace c = true := by
  cases skip with
  | succ skip => cases h
  | zero =>
      rcases scanStep_zero quoted c cs with ⟨quoted', hread⟩ | ⟨-, hc, -⟩
      · rw [hread] at h
        cases h
      · exact hc

theorem eq_of_isBrace {c : Char} (h : Header.isBrace c = true) :
    c = '\x7b' ∨ c = '\x7d' := of_decide_eq_true h

-- ============================================================= one brace

namespace Zone

/-- Outside a block an opening brace opens one, under the header found in front of it. -/
theorem brace_outside_open (p : List Char) : (outside p).brace '\x7b'
    = (.inside (Header.find? p.reverse) [], some .opened) := rfl

/-- Outside a block a closing brace is text. -/
theorem brace_outside_close (p : List Char) : (outside p).brace '\x7d'
    = (.outside ('\x7d' :: p), none) := rfl

/-- In a block without a header a brace without one is content. -/
theorem brace_unheaded_open {c : List Char}
    (h : Header.find? (lastLine c) = none) :
    (inside none c).brace '\x7b' = (.inside none ('\x7b' :: c), none) := by
  unfold brace
  simp only [if_pos, h]
  rfl

/-- In a block without a header a header on the last line starts the block over. -/
theorem brace_unheaded_reopen {c : List Char} {header : Header}
    (h : Header.find? (lastLine c) = some header) :
    (inside none c).brace '\x7b' = (.inside (some header) [], some .reopened) := by
  unfold brace
  simp only [if_pos, h]

/-- In a block with a header an opening brace is content. -/
theorem brace_headed_open (header : Header) (c : List Char) :
    (inside (some header) c).brace '\x7b'
      = (.inside (some header) ('\x7b' :: c), none) := rfl

/-- Behind an opening brace a walk that was inside a block still is. -/
theorem exists_inside_open (h : Option Header) (c : List Char) :
    ∃ h' c', ((inside h c).brace '\x7b').1 = .inside h' c' := by
  cases h with
  | some header => exact ⟨some header, _, rfl⟩
  | none =>
      cases hown : Header.find? (lastLine c) with
      | none => exact ⟨none, _, by rw [brace_unheaded_open hown]⟩
      | some header => exact ⟨some header, [], by rw [brace_unheaded_reopen hown]⟩

/-- Only outside any block a block is opened. -/
theorem exists_outside_of_opened {zone : Zone} {c : Char}
    (h : (zone.brace c).2 = some .opened) : ∃ p, zone = .outside p := by
  match zone with
  | .outside p => exact ⟨p, rfl⟩
  | .inside none content =>
      unfold brace at h
      simp only at h
      split at h
      · split at h <;> cases h
      · cases h
  | .inside (some header) content =>
      unfold brace at h
      simp only at h
      split at h <;> cases h

/-- A closing brace inside a block ends it. -/
theorem exists_closes {zone : Zone} (h : zone.isOutside = false) :
    ∃ m, (zone.brace '\x7d').2 = some m ∧ m.closes = true := by
  match zone with
  | .outside p => cases h
  | .inside none content => exact ⟨.discarded, rfl, rfl⟩
  | .inside (some header) content => exact ⟨_, rfl, rfl⟩

/-- A closing brace completes a block with a header. -/
theorem brace_headed_close (header : Header) (c : List Char) :
    (inside (some header) c).brace '\x7d'
      = (.outside [], some (.closed ⟨header.keyword, header.name, c.reverse⟩)) :=
  rfl

end Zone

-- ========================================================= blocks of marks

/-- The blocks that marks complete. -/
def blocksAmong (marks : List (Nat × Mark)) : List Block :=
  marks.filterMap fun (_, mark) => mark.block?

/-- One more mark completes a block or none. -/
theorem blocksAmong_mark (past : List (Nat × Mark)) (m : Option Mark) (n : Nat) :
    blocksAmong (past ++ (m.map (n, ·)).toList)
      = blocksAmong past ++ (m.bind Mark.block?).toList := by
  unfold blocksAmong
  rw [List.filterMap_append]
  cases m with
  | none => rfl
  | some mark => cases mark <;> rfl

-- ================================================================ courses

/-- Where a walk stands within a line, and the marks made so far. -/
structure Course where
  quoted : Bool := false
  skip : Nat := 0
  zone : Zone
  past : List (Nat × Mark) := []

namespace Course

/-- The state after one character, followed by others on its line. -/
def step (w : Course) (offset : Nat) (c : Char) (cs : List Char) : Course :=
  match scanStep w.quoted w.skip w.zone.isOutside c cs with
  | some (quoted, skip) => ⟨quoted, skip, w.zone.push c, w.past⟩
  | none => ⟨false, 0, (w.zone.brace c).1,
      w.past ++ ((w.zone.brace c).2.map (offset, ·)).toList⟩

/-- The state after the rest of a line. -/
def runChars (w : Course) (offset : Nat) : List Char → Course
  | [] => w
  | c :: cs => (w.step offset c cs).runChars (offset + 1) cs

/-- The state after a comment line. -/
def passComment (w : Course) (line : List Char) : Course :=
  ⟨w.quoted, w.skip, w.zone.passComment line, w.past⟩

/-- The state after a line break. -/
def newLine (w : Course) : Course := ⟨false, 0, w.zone.push '\n', w.past⟩

/-- The state after lines, each followed by a line break. -/
def runLines (w : Course) (offset : Nat) : List (List Char) → Course
  | [] => w
  | line :: ls =>
    let last := if isComment line then w.passComment line
      else w.runChars offset line
    last.newLine.runLines (offset + line.length + 1) ls

variable {w : Course}

/-- A character that is read joins the zone and marks nothing. -/
theorem step_of_read {quoted : Bool} {skip : Nat} {c : Char} {cs : List Char}
    (h : scanStep w.quoted w.skip w.zone.isOutside c cs = some (quoted, skip))
    (offset : Nat) :
    w.step offset c cs = ⟨quoted, skip, w.zone.push c, w.past⟩ := by
  unfold step
  rw [h]

/-- A brace changes the zone and may leave a mark. -/
theorem step_of_brace {c : Char} {cs : List Char}
    (h : scanStep w.quoted w.skip w.zone.isOutside c cs = none) (offset : Nat) :
    w.step offset c cs = ⟨false, 0, (w.zone.brace c).1,
      w.past ++ ((w.zone.brace c).2.map (offset, ·)).toList⟩ := by
  unfold step
  rw [h]

/-- Walks with the same open quote and modifier, both outside any block or
both inside one, do the same with a character: they read it, or they meet a
brace. -/
theorem step_together {w' : Course} (hquoted : w.quoted = w'.quoted)
    (hskip : w.skip = w'.skip) (houtside : w.zone.isOutside = w'.zone.isOutside)
    (offset offset' : Nat) (c : Char) (cs : List Char) :
    (∃ quoted skip, w.step offset c cs = ⟨quoted, skip, w.zone.push c, w.past⟩
        ∧ w'.step offset' c cs = ⟨quoted, skip, w'.zone.push c, w'.past⟩)
      ∨ Header.isBrace c = true
        ∧ w.step offset c cs = ⟨false, 0, (w.zone.brace c).1,
          w.past ++ ((w.zone.brace c).2.map (offset, ·)).toList⟩
        ∧ w'.step offset' c cs = ⟨false, 0, (w'.zone.brace c).1,
          w'.past ++ ((w'.zone.brace c).2.map (offset', ·)).toList⟩ := by
  have hsame : scanStep w'.quoted w'.skip w'.zone.isOutside c cs
      = scanStep w.quoted w.skip w.zone.isOutside c cs := by
    rw [hquoted, hskip, houtside]
  cases h : scanStep w.quoted w.skip w.zone.isOutside c cs with
  | some read =>
      exact Or.inl ⟨read.1, read.2, step_of_read h offset,
        step_of_read (hsame.trans h) offset'⟩
  | none =>
      exact Or.inr ⟨isBrace_of_scanStep h, step_of_brace h offset,
        step_of_brace (hsame.trans h) offset'⟩

/-- A step leaves one mark at most. -/
theorem exists_past_step (w : Course) (offset : Nat) (c : Char)
    (cs : List Char) : ∃ m : Option Mark, (w.step offset c cs).past
      = w.past ++ (m.map (offset, ·)).toList := by
  cases h : scanStep w.quoted w.skip w.zone.isOutside c cs with
  | some read =>
      obtain ⟨quoted, skip⟩ := read
      rw [step_of_read h]
      exact ⟨none, (List.append_nil _).symm⟩
  | none =>
      rw [step_of_brace h]
      exact ⟨_, rfl⟩

/-- The run over the rest of a line is the walk over it. -/
theorem runChars_eq (w : Course) (offset : Nat) (cs : List Char) :
    (w.runChars offset cs).zone
        = (scanChars w.quoted w.skip offset w.zone cs).1
      ∧ (w.runChars offset cs).past
        = w.past ++ (scanChars w.quoted w.skip offset w.zone cs).2 := by
  induction cs generalizing w offset with
  | nil => exact ⟨rfl, (List.append_nil _).symm⟩
  | cons c cs ih =>
      obtain ⟨hzone, hpast⟩ := ih (w.step offset c cs) (offset + 1)
      rw [runChars, scanChars_cons, hzone, hpast]
      cases h : scanStep w.quoted w.skip w.zone.isOutside c cs with
      | some read =>
          obtain ⟨quoted, skip⟩ := read
          rw [step_of_read h]
          exact ⟨rfl, rfl⟩
      | none =>
          rw [step_of_brace h]
          exact ⟨rfl, List.append_assoc _ _ _⟩

/-- The run over lines, begun at the start of one, is the walk over
them. -/
theorem runLines_start (zone : Zone) (past : List (Nat × Mark)) (offset : Nat)
    (ls : List (List Char)) :
    (Course.mk false 0 zone past).runLines offset ls
      = ⟨false, 0, (scanLines offset zone ls).1,
        past ++ (scanLines offset zone ls).2⟩ := by
  induction ls generalizing zone past offset with
  | nil => simp [runLines, scanLines]
  | cons line ls ih =>
      rw [runLines, scanLines_cons, scanLine]
      by_cases hcomment : isComment line = true
      · rw [if_pos hcomment, if_pos hcomment]
        exact ih _ past _
      · rw [if_neg hcomment, if_neg hcomment]
        obtain ⟨hzone, hpast⟩ :=
          runChars_eq (Course.mk false 0 zone past) offset line
        unfold newLine
        simp only
        rw [hzone, hpast, ih, List.append_assoc]

/-- Marks are only added within a line. -/
theorem past_prefix_runChars (w : Course) (offset : Nat) (cs : List Char) :
    w.past <+: (w.runChars offset cs).past := by
  rw [(runChars_eq w offset cs).2]
  exact List.prefix_append _ _

/-- Marks are only added from line to line. -/
theorem past_prefix_runLines (w : Course) (offset : Nat)
    (ls : List (List Char)) : w.past <+: (w.runLines offset ls).past := by
  induction ls generalizing w offset with
  | nil => exact List.prefix_rfl
  | cons line ls ih =>
      rw [runLines]
      refine List.IsPrefix.trans ?_ (ih _ _)
      split
      · exact List.prefix_rfl
      · exact past_prefix_runChars w offset line

/-- A walk over lines goes on behind those it has passed. -/
theorem runLines_append (w : Course) (offset : Nat) (ls more : List (List Char)) :
    w.runLines offset (ls ++ more)
      = (w.runLines offset ls).runLines
        (offset + (ls.flatMap (· ++ ['\n'])).length) more := by
  induction ls generalizing w offset with
  | nil => rfl
  | cons line ls ih =>
      rw [List.cons_append, runLines, runLines, ih, List.flatMap_cons,
        List.length_append, List.length_append, List.length_singleton]
      congr 1
      omega

/-- The walk over a text. -/
theorem runLines_text (text : List Char) :
    (Course.mk false 0 (.outside []) []).runLines 0 (lines text)
      = ⟨false, 0, (scanText text).1, (scanText text).2⟩ :=
  runLines_start (.outside []) [] 0 (lines text)

end Course

-- =========================================================== side by side

/-- Relations between two walks that read the same lines, at the starts of
lines and within them, that hold on. The walks have read `seen` of a text;
the offsets of the second are greater by `shift`, and `marks` are all those
of the first. -/
structure SideBySide (text : List Char) (marks : List (Nat × Mark)) (shift : Nat)
    (atStart : List Char → Course → Course → Prop)
    (within : List Char → Course → Course → List Char → Prop) : Prop where
  start : ∀ seen w w' line, isComment line = false → atStart seen w w' →
    within seen w w' line
  step : ∀ seen w w' c cs more, text = seen ++ (c :: cs ++ '\n' :: more) →
    c ≠ '\n' → (w.step seen.length c cs).past <+: marks →
    within seen w w' (c :: cs) →
    within (seen ++ [c]) (w.step seen.length c cs)
      (w'.step (seen.length + shift) c cs) cs
  finish : ∀ seen w w', isComment (lastPart seen) = false →
    within seen w w' [] → atStart (seen ++ ['\n']) w.newLine w'.newLine
  comment : ∀ seen w w' line, lastPart seen = [] → '\n' ∉ line →
    isComment line = true → atStart seen w w' →
    atStart (seen ++ (line ++ ['\n'])) (w.passComment line).newLine
      (w'.passComment line).newLine

namespace SideBySide

variable {text seen : List Char} {marks : List (Nat × Mark)} {shift : Nat}
  {atStart : List Char → Course → Course → Prop}
  {within : List Char → Course → Course → List Char → Prop} {w w' : Course}

/-- A comparison survives the characters of a line, as it survives each of them. -/
theorem runChars (h : SideBySide text marks shift atStart within)
    {cs more : List Char} (hwithin : within seen w w' cs)
    (htext : text = seen ++ (cs ++ '\n' :: more)) (hcs : '\n' ∉ cs)
    (hmarks : (w.runChars seen.length cs).past <+: marks) :
    within (seen ++ cs) (w.runChars seen.length cs)
      (w'.runChars (seen.length + shift) cs) [] := by
  induction cs generalizing seen w w' with
  | nil =>
      rw [List.append_nil]
      exact hwithin
  | cons c cs ih =>
      have hc : c ≠ '\n' := fun heq => hcs (heq ▸ List.mem_cons_self ..)
      have hrest : '\n' ∉ cs := fun hmem => hcs (List.mem_cons_of_mem _ hmem)
      have hlength : seen.length + 1 = (seen ++ [c]).length := by simp
      rw [Course.runChars, hlength] at hmarks
      have hstep := h.step seen w w' c cs more htext hc
        ((Course.past_prefix_runChars _ _ _).trans hmarks) hwithin
      rw [Course.runChars, Course.runChars, Nat.add_right_comm, hlength,
        List.append_cons seen]
      exact ih hstep (by rw [htext]; simp) hrest hmarks

/-- What holds at the start of a line holds after any number of lines. -/
theorem runLines (h : SideBySide text marks shift atStart within)
    {ls : List (List Char)} (hstart : atStart seen w w')
    (htext : text = seen ++ ls.flatMap (· ++ ['\n'])) (hseen : lastPart seen = [])
    (hls : ∀ l ∈ ls, '\n' ∉ l)
    (hmarks : (w.runLines seen.length ls).past <+: marks) :
    atStart text (w.runLines seen.length ls)
      (w'.runLines (seen.length + shift) ls) := by
  induction ls generalizing seen w w' with
  | nil =>
      rw [List.flatMap_nil, List.append_nil] at htext
      rw [htext]
      exact hstart
  | cons line ls ih =>
      have hline := hls line (List.mem_cons_self ..)
      have hlength : seen.length + line.length + 1
          = (seen ++ (line ++ ['\n'])).length := by
        simp [Nat.add_assoc]
      have hshift : seen.length + shift + line.length + 1
          = (seen ++ (line ++ ['\n'])).length + shift := by
        rw [← hlength]
        omega
      rw [List.flatMap_cons, ← List.append_assoc] at htext
      have hlast : lastPart (seen ++ (line ++ ['\n'])) = [] := by
        rw [← List.append_assoc]
        exact lastPart_append_break _
      rw [Course.runLines, hlength] at hmarks
      rw [Course.runLines, Course.runLines, hlength, hshift]
      refine ih ?_ htext hlast (fun l hl => hls l (List.mem_cons_of_mem _ hl))
        hmarks
      by_cases hcomment : isComment line = true
      · rw [if_pos hcomment, if_pos hcomment]
        exact h.comment seen w w' line hseen hline hcomment hstart
      · rw [if_neg hcomment] at hmarks
        rw [if_neg hcomment, if_neg hcomment]
        have hread : isComment line = false := by simpa using hcomment
        have hprefix := (Course.past_prefix_runLines
          (w.runChars seen.length line).newLine _ ls).trans hmarks
        have hrest : text = seen ++ (line ++ '\n' :: ls.flatMap (· ++ ['\n'])) := by
          rw [htext]
          simp
        have hwithin := h.runChars (h.start seen w w' line hread hstart) hrest
          hline hprefix
        rw [← List.append_assoc]
        refine h.finish _ _ _ ?_ hwithin
        rw [lastPart_append_of_not_mem hline, hseen]
        exact hread

end SideBySide

end ApiScaffold
