/-
The walk over a text does not see its layout. A zone without its layout
(`Zone.bare`) keeps the squash of the text before a header and the content
lines of a body. It is all that a brace asks about (`bare_brace`), so two
walks that agree on it keep agreeing over the same characters
(`scanChars_same`). A line gives the same with its blanks and without:
those at its start change nothing because the zone stands at the start of
a line (`bare_pushAll_blanks`), and those at its end go with the line
break that follows (`bare_break_pushAll`). Blank lines add nothing, and
the walk over lines is the walk over their content (`scanLines_same`).
-/
import ApiScaffold.Proofs.Diagram.Content
import ApiScaffold.Proofs.Diagram.Header
import ApiScaffold.Proofs.Diagram.Modifier

namespace ApiScaffold

-- ========================================================= bare blocks

/-- A block without the layout of its body. -/
structure BareBlock where
  keyword : Keyword
  name : List Char
  content : List (List Char)
deriving Inhabited, Repr, DecidableEq

/-- A block with the layout of its body taken off. -/
def Block.bare (b : Block) : BareBlock := ⟨b.keyword, b.name, contentLines b.body⟩

/-- The block that a brace completes, if it does, without its layout. -/
def bareMark? (mark : Option Mark) : Option BareBlock :=
  (mark.bind Mark.block?).map Block.bare

/-- The blocks among marks, without their layout. -/
def bareBlocks (marks : List (Nat × Mark)) : List BareBlock :=
  (marks.filterMap fun (_, mark) => mark.block?).map Block.bare

theorem bareBlocks_append (marks more : List (Nat × Mark)) :
    bareBlocks (marks ++ more) = bareBlocks marks ++ bareBlocks more := by
  unfold bareBlocks
  rw [List.filterMap_append, List.map_append]

/-- One more mark completes a block or none. -/
theorem bareBlocks_mark (mark : Option Mark) (offset : Nat) :
    bareBlocks (mark.map (offset, ·)).toList = (bareMark? mark).toList := by
  cases mark with
  | none => rfl
  | some m => cases m <;> rfl

-- ========================================================== bare zones

/-- A zone without layout. -/
inductive BareZone where
  | outside (pending : List Char)
  | inside (header : Option Header) (done : List (List Char))
    (current : List Char)

/-- Whether the zone stands where a blank makes no difference, as it does
at the start of a line. -/
def BareZone.AtLineStart : BareZone → Prop
  | .outside pending => ∀ d r, pending = d :: r → d = ' '
  | .inside _ _ current => current = []

namespace Zone

/-- A zone with the layout of its texts taken off. -/
def bare : Zone → BareZone
  | .outside pending => .outside (squash pending)
  | .inside header content =>
    .inside header (bareBody content).1 (bareBody content).2

/-- The zone after a text. -/
def pushAll (s : List Char) (zone : Zone) : Zone :=
  s.foldl (fun z c => z.push c) zone

variable {z z' : Zone}

/-- Inside blocks that agree without layout, header and content agree. -/
theorem bare_inside_inj {header header' : Option Header}
    {content content' : List Char}
    (h : (Zone.inside header content).bare = (Zone.inside header' content').bare) :
    header = header' ∧ bareBody content = bareBody content' := by
  injection h with hheader hdone hcurrent
  exact ⟨hheader, Prod.ext hdone hcurrent⟩

/-- Zones that agree without layout still do after one more character. -/
theorem bare_push (h : z.bare = z'.bare) (c : Char) :
    (z.push c).bare = (z'.push c).bare := by
  match z, z' with
  | .outside pending, .outside pending' =>
      injection h with hpending
      exact congrArg BareZone.outside (squash_cons_congr hpending c)
  | .inside header content, .inside header' content' =>
      obtain ⟨rfl, hbody⟩ := bare_inside_inj h
      simp only [push, bare, bareBody_cons_congr hbody c]
  | .outside _, .inside _ _ => cases h
  | .inside _ _, .outside _ => cases h

/-- Zones that agree without layout are outside any block alike. -/
theorem isOutside_of_bare (h : z.bare = z'.bare) :
    z.isOutside = z'.isOutside := by
  match z, z' with
  | .outside _, .outside _ => rfl
  | .inside _ _, .inside _ _ => rfl
  | .outside _, .inside _ _ => cases h
  | .inside _ _, .outside _ => cases h

/-- Zones that agree but for their layout give the same to a brace: zones
that agree, and the same block. -/
theorem bare_brace (h : z.bare = z'.bare) (c : Char) :
    (z.brace c).1.bare = (z'.brace c).1.bare
      ∧ bareMark? (z.brace c).2 = bareMark? (z'.brace c).2 := by
  have hpush := bare_push h c
  match z, z' with
  | .outside pending, .outside pending' =>
      injection h with hpending
      have hfind := Header.find?_of_squash_eq hpending
      unfold brace
      simp only [hfind]
      split
      · exact ⟨rfl, rfl⟩
      · exact ⟨hpush, rfl⟩
  | .inside none content, .inside header' content' =>
      obtain ⟨rfl, hbody⟩ := bare_inside_inj h
      have hfind : Header.find? (lastLine content)
          = Header.find? (lastLine content') := by
        obtain ⟨-, -, -, hlast⟩ := exists_lines_reverse content
        obtain ⟨-, -, -, hlast'⟩ := exists_lines_reverse content'
        rw [← Header.find?_trimStart, hlast, hbody, ← hlast',
          Header.find?_trimStart]
      unfold brace
      simp only [hfind]
      split
      · cases Header.find? (lastLine content') with
        | none => exact ⟨hpush, rfl⟩
        | some header => exact ⟨rfl, rfl⟩
      · exact ⟨rfl, rfl⟩
  | .inside (some header) content, .inside header' content' =>
      obtain ⟨rfl, hbody⟩ := bare_inside_inj h
      unfold brace
      simp only
      split
      · exact ⟨hpush, rfl⟩
      · refine ⟨rfl, ?_⟩
        have hcontent : contentLines content.reverse
            = contentLines content'.reverse := by
          rw [contentLines_reverse, contentLines_reverse, hbody]
        unfold bareMark? Block.bare
        simp only [Option.bind_some, Mark.block?, Option.map_some, hcontent]
  | .outside _, .inside _ _ => cases h
  | .inside _ _, .outside _ => cases h

-- ============================================================== blanks

/-- A blank at the start of a line changes nothing. -/
theorem bare_push_blank {b : Char} (hb : isBlank b = true)
    (h : z.bare.AtLineStart) : (z.push b).bare = z.bare := by
  match z with
  | .outside pending =>
      exact congrArg BareZone.outside (squash_blank_cons_of_settled hb h)
  | .inside header content =>
      have hbody := bareBody_blank_cons hb h
      simp only [push, bare, hbody]

/-- After a line break stands the start of a line. -/
theorem atLineStart_push_break (z : Zone) : (z.push '\n').bare.AtLineStart := by
  match z with
  | .outside pending => exact settled_blank_cons (by decide) pending
  | .inside header content => rfl

/-- A blank before a line break changes nothing. -/
theorem bare_break_push_blank {b : Char} (hb : isBlank b = true) (z : Zone) :
    ((z.push b).push '\n').bare = (z.push '\n').bare := by
  match z with
  | .outside pending =>
      exact congrArg BareZone.outside
        (squash_blank_blanks_append (b := '\n') (by decide)
          (allBlank_singleton hb) pending)
  | .inside header content =>
      have hbody := bareBody_break_blank_cons hb content
      simp only [push, bare, hbody]

theorem pushAll_cons (c : Char) (s : List Char) (z : Zone) :
    z.pushAll (c :: s) = (z.push c).pushAll s := rfl

theorem pushAll_append (s t : List Char) (z : Zone) :
    z.pushAll (s ++ t) = (z.pushAll s).pushAll t :=
  List.foldl_append

/-- Zones that agree without layout still do after any more text. -/
theorem bare_pushAll (h : z.bare = z'.bare) (s : List Char) :
    (z.pushAll s).bare = (z'.pushAll s).bare := by
  induction s generalizing z z' with
  | nil => exact h
  | cons c s ih => exact ih (bare_push h c)

/-- Blanks at the start of a line change nothing. -/
theorem bare_pushAll_blanks {g : List Char} (hg : AllBlank g)
    (h : z.bare.AtLineStart) : (z.pushAll g).bare = z.bare := by
  induction g generalizing z with
  | nil => rfl
  | cons b g ih =>
      have hstep := bare_push_blank (hg b (List.mem_cons_self ..)) h
      rw [pushAll_cons, ← hstep]
      exact ih (fun c hc => hg c (List.mem_cons_of_mem _ hc)) (hstep ▸ h)

/-- Blanks before a line break change nothing. -/
theorem bare_break_pushAll {g : List Char} (hg : AllBlank g) (z : Zone) :
    ((z.pushAll g).push '\n').bare = (z.push '\n').bare := by
  induction g generalizing z with
  | nil => rfl
  | cons b g ih =>
      rw [pushAll_cons, ih fun c hc => hg c (List.mem_cons_of_mem _ hc)]
      exact bare_break_push_blank (hg b (List.mem_cons_self ..)) z

/-- Inside a block text joins the content, last character first. -/
theorem pushAll_inside (s : List Char) (header : Option Header)
    (content : List Char) :
    (Zone.inside header content).pushAll s
      = .inside header (s.reverse ++ content) := by
  induction s generalizing content with
  | nil => rfl
  | cons c s ih =>
      rw [pushAll_cons, push, ih, List.reverse_cons, List.append_assoc]
      rfl

/-- Outside any block text joins what a header is looked for in. -/
theorem pushAll_outside (s pending : List Char) :
    (Zone.outside pending).pushAll s = .outside (s.reverse ++ pending) := by
  induction s generalizing pending with
  | nil => rfl
  | cons c s ih =>
      rw [pushAll_cons, push, ih, List.reverse_cons, List.append_assoc]
      rfl

end Zone

-- ======================================================== one character

/-- What a walk does at a character, given whether it stands outside any
block and the characters that follow: it reads the character and goes on,
with a quote open or not and so many characters of a modifier to pass, or
it takes it for a brace. -/
def scanStep (quoted : Bool) (skip : Nat) (outside : Bool) (c : Char)
    (cs : List Char) : Option (Bool × Nat) :=
  match skip with
  | skip + 1 => some (quoted, skip)
  | 0 =>
    if c = '"' then some (!quoted, 0)
    else if quoted || !Header.isBrace c then some (quoted, 0)
    else if c = '\x7b' && !outside then (modifierWidth? cs).map (false, ·)
    else none

/-- What a walk is with the mark of its first character. -/
def Zone.mark (offset : Nat) (mark : Option Mark)
    (rest : Zone × List (Nat × Mark)) : Zone × List (Nat × Mark) :=
  (rest.1, (mark.map (offset, ·)).toList ++ rest.2)

/-- A walk is its first step and a walk. -/
theorem scanChars_cons (quoted : Bool) (skip offset : Nat) (zone : Zone)
    (c : Char) (cs : List Char) :
    scanChars quoted skip offset zone (c :: cs)
      = match scanStep quoted skip zone.isOutside c cs with
        | some (quoted, skip) =>
          scanChars quoted skip (offset + 1) (zone.push c) cs
        | none => Zone.mark offset (zone.brace c).2
            (scanChars false 0 (offset + 1) (zone.brace c).1 cs) := by
  cases skip with
  | succ skip => rfl
  | zero =>
      rw [scanChars]
      unfold scanStep
      simp only
      by_cases hquote : c = '"'
      · rw [if_pos hquote, if_pos hquote]
      rw [if_neg hquote, if_neg hquote]
      cases hplain : quoted || !Header.isBrace c with
      | true => rfl
      | false =>
          cases c = '\x7b' && !zone.isOutside with
          | false => rfl
          | true => cases modifierWidth? cs <;> rfl

/-- A character that is neither a quote nor a brace is read. -/
theorem scanStep_plain {c : Char} (hquote : c ≠ '"')
    (hbrace : Header.isBrace c = false) (quoted outside : Bool)
    (cs : List Char) : scanStep quoted 0 outside c cs = some (quoted, 0) := by
  unfold scanStep
  simp [hquote, hbrace]

/-- Between quotes all but a quote is read. -/
theorem scanStep_quoted {c : Char} (hquote : c ≠ '"') (outside : Bool)
    (cs : List Char) : scanStep true 0 outside c cs = some (true, 0) := by
  unfold scanStep
  simp [hquote]

/-- Blanks at the end of the text make no modifier. -/
theorem scanStep_append_blanks {g : List Char} (hg : AllBlank g)
    (quoted outside : Bool) (skip : Nat) (c : Char) (cs : List Char) :
    scanStep quoted skip outside c (cs ++ g)
      = scanStep quoted skip outside c cs := by
  unfold scanStep
  rw [modifierWidth?_append_blanks hg]

-- ========================================================== alike walks

/-- Walks that end alike and give the same blocks, but for layout. -/
def SameWalk (r r' : Zone × List (Nat × Mark)) : Prop :=
  r.1.bare = r'.1.bare ∧ bareBlocks r.2 = bareBlocks r'.2

/-- Walks that agree still do when the same block is completed in both. -/
theorem SameWalk.mark {r r' : Zone × List (Nat × Mark)} {m m' : Option Mark}
    (h : SameWalk r r') (hmark : bareMark? m = bareMark? m')
    (offset offset' : Nat) :
    SameWalk (Zone.mark offset m r) (Zone.mark offset' m' r') := by
  refine ⟨h.1, ?_⟩
  unfold Zone.mark
  rw [bareBlocks_append, bareBlocks_append, bareBlocks_mark, bareBlocks_mark,
    hmark, h.2]

/-- Walks over the same characters stay alike. -/
theorem scanChars_same {z z' : Zone} (h : z.bare = z'.bare)
    (cs : List Char) (quoted : Bool) (skip offset offset' : Nat) :
    SameWalk (scanChars quoted skip offset z cs)
      (scanChars quoted skip offset' z' cs) := by
  induction cs generalizing z z' quoted skip offset offset' with
  | nil => exact ⟨h, rfl⟩
  | cons c cs ih =>
      rw [scanChars_cons, scanChars_cons, Zone.isOutside_of_bare h]
      split
      next quoted skip _ => exact ih (Zone.bare_push h c) quoted skip _ _
      next =>
        obtain ⟨hzone, hmark⟩ := Zone.bare_brace h c
        exact (ih hzone false 0 _ _).mark hmark _ _

-- ========================================================= inert texts

/-- A text without quotes and braces. -/
def Plain (s : List Char) : Prop := ∀ c ∈ s, c ≠ '"' ∧ Header.isBrace c = false

instance (s : List Char) : Decidable (Plain s) :=
  List.decidableBAll (fun c => c ≠ '"' ∧ Header.isBrace c = false) s

/-- A text that a walk does nothing over but read it. -/
def Inert (s : List Char) : Prop :=
  ∀ (offset : Nat) (zone : Zone) (t : List Char),
    scanChars false 0 offset zone (s ++ t)
      = scanChars false 0 (offset + s.length) (zone.pushAll s) t

/-- Of two texts that are only read the two in a row are only read. -/
theorem Inert.append {s t : List Char} (hs : Inert s) (ht : Inert t) :
    Inert (s ++ t) := by
  intro offset zone r
  rw [List.append_assoc, hs, ht, Zone.pushAll_append, List.length_append,
    Nat.add_assoc]

/-- A text without quotes and braces is only read. -/
theorem Plain.inert {s : List Char} (h : Plain s) : Inert s := by
  induction s with
  | nil => exact fun _ _ _ => rfl
  | cons c s ih =>
      intro offset zone t
      obtain ⟨hquote, hbrace⟩ := h c (List.mem_cons_self ..)
      have hs : Plain s := fun d hd => h d (List.mem_cons_of_mem _ hd)
      rw [List.cons_append, scanChars_cons, scanStep_plain hquote hbrace]
      simp only
      rw [ih hs, List.length_cons, Nat.add_assoc, Nat.add_comm 1]
      rfl

/-- Between quotes braces mean nothing. -/
theorem inert_quoted {q : List Char} (hq : '"' ∉ q) :
    Inert ('"' :: (q ++ ['"'])) := by
  have hinner : ∀ (offset : Nat) (zone : Zone) (t : List Char),
      scanChars true 0 offset zone (q ++ '"' :: t)
        = scanChars false 0 (offset + q.length + 1)
            ((zone.pushAll q).push '"') t := by
    induction q with
    | nil => exact fun _ _ _ => rfl
    | cons c q ih =>
        intro offset zone t
        have hc : c ≠ '"' := fun heq => hq (heq ▸ List.mem_cons_self ..)
        have hq' : '"' ∉ q := fun hmem => hq (List.mem_cons_of_mem _ hmem)
        rw [List.cons_append, scanChars_cons, scanStep_quoted hc]
        simp only
        rw [ih hq', List.length_cons, Nat.add_assoc offset, Nat.add_comm 1]
        rfl
  intro offset zone t
  rw [List.cons_append, List.append_assoc]
  refine (hinner (offset + 1) (zone.push '"') t).trans ?_
  rw [Zone.pushAll_cons, Zone.pushAll_append, List.length_cons,
    List.length_append, List.length_singleton, ← Nat.add_assoc,
    Nat.add_right_comm offset]
  rfl

/-- A walk over a text that is only read keeps it and marks nothing. -/
theorem scanChars_of_inert {s : List Char} (h : Inert s) (offset : Nat)
    (zone : Zone) : scanChars false 0 offset zone s = (zone.pushAll s, []) := by
  have hall := h offset zone []
  rwa [List.append_nil] at hall

-- =========================================================== one line

/-- A blank is neither a quote nor a brace. -/
theorem AllBlank.plain {g : List Char} (hg : AllBlank g) : Plain g := by
  intro b hb
  refine ⟨fun heq => ?_, Header.isBrace_of_isBlank (hg b hb)⟩
  exact absurd (heq ▸ hg b hb) (by decide)

/-- Blanks are read into the text kept. -/
theorem scanChars_blanks {g : List Char} (hg : AllBlank g) (quoted : Bool)
    (skip offset : Nat) (zone : Zone) :
    scanChars quoted skip offset zone g = (zone.pushAll g, []) := by
  induction g generalizing skip offset zone with
  | nil => rfl
  | cons b g ih =>
      have hg' : AllBlank g := fun c hc => hg c (List.mem_cons_of_mem _ hc)
      obtain ⟨hquote, hbrace⟩ := hg.plain b (List.mem_cons_self ..)
      cases skip with
      | succ skip => exact ih hg' skip (offset + 1) (zone.push b)
      | zero =>
          rw [scanChars_cons, scanStep_plain hquote hbrace]
          exact ih hg' 0 (offset + 1) (zone.push b)

/-- Blanks at the end of a line are read into the text kept, whatever
state the walk is in. -/
theorem scanChars_append_blanks {g : List Char} (hg : AllBlank g)
    (s : List Char) (quoted : Bool) (skip offset : Nat) (zone : Zone) :
    scanChars quoted skip offset zone (s ++ g)
      = ((scanChars quoted skip offset zone s).1.pushAll g,
        (scanChars quoted skip offset zone s).2) := by
  induction s generalizing quoted skip offset zone with
  | nil => exact scanChars_blanks hg quoted skip offset zone
  | cons c s ih =>
      rw [List.cons_append, scanChars_cons, scanChars_cons,
        scanStep_append_blanks hg]
      split
      next quoted skip _ => exact ih quoted skip _ _
      next =>
        rw [ih]
        rfl

/-- Blanks around a line do not decide whether it is a comment. -/
theorem isComment_trim (line : List Char) :
    isComment (trim line) = isComment line := by
  unfold isComment
  rw [← head?_trim (trim line), trim_trim, head?_trim]

/-- A comment line leaves the same without the blanks around it. -/
theorem bare_break_passComment {z z' : Zone} (h : z.bare = z'.bare)
    (hs : z.bare.AtLineStart) (line : List Char) :
    ((z.passComment line).push '\n').bare
      = ((z'.passComment (trim line)).push '\n').bare := by
  match z, z' with
  | .outside _, .outside _ => rfl
  | .inside header content, .inside header' content' =>
      have hpass : ∀ l header content, (Zone.inside header content).passComment l
          = (Zone.inside header content).pushAll l := fun l header content =>
        (Zone.pushAll_inside l header content).symm
      obtain ⟨g, g', hg, hg', hline⟩ := exists_trim line
      rw [hpass, hpass]
      conv => lhs; rw [hline]
      rw [Zone.pushAll_append, Zone.pushAll_append, Zone.bare_break_pushAll hg']
      refine Zone.bare_push (Zone.bare_pushAll ?_ _) '\n'
      rw [Zone.bare_pushAll_blanks hg hs, h]
  | .outside _, .inside _ _ => cases h
  | .inside _ _, .outside _ => cases h

/-- A line, with its break, leaves and gives the same without the blanks
around it. -/
theorem scanLine_trim {z z' : Zone} (h : z.bare = z'.bare)
    (hs : z.bare.AtLineStart) (line : List Char) (offset offset' : Nat) :
    ((scanLine offset z line).1.push '\n').bare
        = ((scanLine offset' z' (trim line)).1.push '\n').bare
      ∧ bareBlocks (scanLine offset z line).2
        = bareBlocks (scanLine offset' z' (trim line)).2 := by
  unfold scanLine
  rw [isComment_trim]
  split
  · exact ⟨bare_break_passComment h hs line, rfl⟩
  · obtain ⟨g, g', hg, hg', hline⟩ := exists_trim line
    have hstart : (z.pushAll g).bare = z'.bare :=
      (Zone.bare_pushAll_blanks hg hs).trans h
    obtain ⟨hzone, hmarks⟩ := scanChars_same hstart (trim line) false 0
      (offset + g.length) offset'
    have hscan : scanChars false 0 offset z line
        = ((scanChars false 0 (offset + g.length) (z.pushAll g)
              (trim line)).1.pushAll g',
          (scanChars false 0 (offset + g.length) (z.pushAll g)
              (trim line)).2) := by
      rw [← hg.plain.inert, ← scanChars_append_blanks hg', ← hline]
    rw [hscan]
    refine ⟨?_, hmarks⟩
    rw [Zone.bare_break_pushAll hg']
    exact Zone.bare_push hzone '\n'

-- =========================================================== all lines

/-- A walk over lines takes the first, its line break and then the others. -/
theorem scanLines_cons (offset : Nat) (z : Zone) (line : List Char)
    (ls : List (List Char)) :
    scanLines offset z (line :: ls)
      = ((scanLines (offset + line.length + 1)
            ((scanLine offset z line).1.push '\n') ls).1,
        (scanLine offset z line).2
          ++ (scanLines (offset + line.length + 1)
            ((scanLine offset z line).1.push '\n') ls).2) := rfl

/-- A walk over lines is, but for layout, the walk over their content. -/
theorem scanLines_same {z z' : Zone} (h : z.bare = z'.bare)
    (hs : z.bare.AtLineStart) (ls : List (List Char)) (offset offset' : Nat) :
    SameWalk (scanLines offset z ls) (scanLines offset' z' (inkLines ls)) := by
  induction ls generalizing z z' offset offset' with
  | nil => exact ⟨h, rfl⟩
  | cons line ls ih =>
      obtain ⟨hzone, hmarks⟩ := scanLine_trim h hs line offset offset'
      rw [scanLines_cons, inkLines_cons]
      by_cases hblank : trim line = []
      · rw [inkLines_of_blank hblank, List.nil_append]
        have hskip : (z'.push '\n').bare = z'.bare :=
          Zone.bare_push_blank (by decide) (h ▸ hs)
        rw [hblank] at hzone hmarks
        obtain ⟨hlast, hmore⟩ := ih (hzone.trans hskip)
          (Zone.atLineStart_push_break _) (offset + line.length + 1) offset'
        refine ⟨hlast, ?_⟩
        rw [bareBlocks_append, hmarks, hmore]
        rfl
      · rw [inkLines_of_ink hblank, List.singleton_append, scanLines_cons]
        obtain ⟨hlast, hmore⟩ := ih hzone (Zone.atLineStart_push_break _)
          (offset + line.length + 1) (offset' + (trim line).length + 1)
        refine ⟨hlast, ?_⟩
        rw [bareBlocks_append, bareBlocks_append, hmarks, hmore]

/-- Texts with the same content lines have the same blocks, but for the
layout of their bodies. -/
theorem blocksIn_bare {s t : List Char} (h : contentLines s = contentLines t) :
    (blocksIn s).map Block.bare = (blocksIn t).map Block.bare := by
  have hcontent : ∀ s, (blocksIn s).map Block.bare
      = bareBlocks (scanLines 0 (.outside []) (contentLines s)).2 := by
    intro s
    have hstart : (Zone.outside []).bare.AtLineStart := by
      intro d r hd
      cases hd
    exact (scanLines_same rfl hstart (lines s) 0 0).2
  rw [hcontent, hcontent, h]

end ApiScaffold
