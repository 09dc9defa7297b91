/-
Comment lines. A comment line that is put into a text changes nothing of
what is read from it as long as no header is looked for across it: outside
any block a comment line ends the text in which a header is looked for, so
one between a header and its brace takes the header away.

Inside a block the line joins the body, where it is no member and no value
(`BareBlock.withoutComments`). The walks over the text with the line and
without are compared side by side (`Alike`): behind the line they stand
alike, or they are in the same block with the line in one of its bodies, or
outside any block with the header text cut off in one of them. A brace that
opens a block ends the last of these, and the header has to be the same
there.
-/
import ApiScaffold.Proofs.Diagram.HeaderText
import ApiScaffold.Proofs.Diagram.Layout

namespace ApiScaffold

variable {c : List Char}

-- =============================================================== relations

/-- A comment line starts with an apostrophe once it is trimmed. -/
theorem head?_trim_of_isComment (h : isComment c = true) :
    (trim c).head? = some '\'' := by
  rw [head?_trim]
  exact beq_iff_eq.mp h

/-- A comment line encodes no relation. -/
theorem Relation.ofLine?_of_isComment (h : isComment c = true) :
    Relation.ofLine? c = .ok none := by
  unfold Relation.ofLine? RelationLine.ofLine
  simp only [head?_trim_of_isComment h, beq_self_eq_true, Bool.or_true, if_true]

/-- A comment line relates nothing. -/
theorem relationsOfLines_insert (h : isComment c = true)
    (above below : List (List Char)) :
    relationsOfLines (above ++ c :: below) = relationsOfLines (above ++ below) := by
  have habsent : ∀ l ∈ [c], Relation.ofLine? l = .ok none := fun l hl =>
    List.mem_singleton.mp hl ▸ Relation.ofLine?_of_isComment h
  rw [List.append_cons, List.append_assoc, relationsOfLines_append,
    relationsOfLines_append_of_absent habsent, ← relationsOfLines_append]

-- ================================================================= bodies

/-- A content line that is no comment. -/
def isSaid (line : List Char) : Bool := line.head? != some '\''

/-- A block without the comment lines of its body. -/
def BareBlock.withoutComments (b : BareBlock) : BareBlock :=
  { b with content := b.content.filter isSaid }

/-- A block without the layout and the comment lines of its body. -/
def Block.said (b : Block) : BareBlock := b.bare.withoutComments

/-- A comment line has no content. -/
theorem contentLines_of_isComment (h : isComment c = true) (hbreak : '\n' ∉ c) :
    (contentLines c).filter isSaid = [] := by
  have hhead := head?_trim_of_isComment h
  have hink : trim c ≠ [] := by
    intro hnil
    rw [hnil] at hhead
    cases hhead
  rw [contentLines_of_line hbreak, inkLines_of_ink hink]
  simp [isSaid, hhead]

/-- A comment line among the lines of a body says nothing. -/
theorem contentLines_insert (h : isComment c = true) (hbreak : '\n' ∉ c)
    (s t : List Char) :
    (contentLines (s ++ '\n' :: (c ++ '\n' :: t))).filter isSaid
      = (contentLines (s ++ '\n' :: t)).filter isSaid := by
  rw [contentLines_append_break, contentLines_append_break, contentLines_append_break,
    List.filter_append, List.filter_append, List.filter_append,
    contentLines_of_isComment h hbreak, List.nil_append]

/-- A comment line is no member. -/
theorem Member.ofLine?_of_comment {line : List Char} (h : isSaid line = false) :
    Member.ofLine? line = none := by
  have hhead : line.head? = some '\'' := by simpa [isSaid] using h
  obtain ⟨r, rfl⟩ := List.head?_eq_some_iff.mp hhead
  have hmodifiers : dropModifiers ('\'' :: r) = '\'' :: r :=
    dropModifiers_of_ne (by simp)
  have hunwrap : Member.unwrap ('\'' :: r) = (.pub, '\'' :: r) := by
    unfold Member.unwrap
    simp only [hmodifiers]
    rfl
  have hword : ('\'' :: r).takeWhile isWord = [] :=
    List.takeWhile_cons_of_neg (by decide)
  unfold Member.ofLine? Member.readMethod? Member.readAttribute?
  simp only [hunwrap, hword]
  split <;> rfl

/-- A comment line lists no values. -/
theorem valuesOfLine_of_comment {line : List Char} (h : isSaid line = false) :
    valuesOfLine line = [] := by
  have hhead : line.head? = some '\'' := by simpa [isSaid] using h
  unfold valuesOfLine
  rw [hhead]
  rfl

/-- Comment lines are no members. -/
theorem BareBlock.members_withoutComments (b : BareBlock) :
    b.withoutComments.members = b.members := by
  unfold members withoutComments
  rw [List.filterMap_filter]
  refine List.filterMap_congr fun line _ => ?_
  cases h : isSaid line with
  | true => rfl
  | false => exact (Member.ofLine?_of_comment h).symm

/-- Comment lines are no values. -/
theorem BareBlock.enumeration_withoutComments (b : BareBlock) :
    b.withoutComments.enumeration = b.enumeration := by
  unfold enumeration withoutComments
  congr 2
  induction b.content with
  | nil => rfl
  | cons line content ih =>
      rw [List.filter_cons, List.flatMap_cons, ← ih]
      split
      · rw [List.flatMap_cons]
      next h =>
        rw [valuesOfLine_of_comment (by simpa using h), List.nil_append]

/-- Comment lines in bodies make no difference to a diagram. -/
theorem Diagram.ofParts_said {blocks blocks' : List Block}
    (h : blocks.map Block.said = blocks'.map Block.said)
    (relations : List Relation) :
    ofParts blocks relations = ofParts blocks' relations := by
  refine ofParts_erase (fun _ => rfl) (fun kind b => ?_) (fun b => ?_) h relations
  · rw [Entity.ofBlock_eq]
    unfold BareBlock.entity Block.said
    rw [BareBlock.members_withoutComments]
    rfl
  · rw [Enumeration.ofBlock_eq]
    exact b.bare.enumeration_withoutComments.symm

-- ============================================================== the walks

/-- How the zones of a walk without the line and of one with it stand to each
other. The line stands before the offset `o`; the walks have read `seen`, and
the line besides. -/
inductive AlikeZones (c : List Char) (o : Nat) (seen : List Char)
    (past : List (Nat × Mark)) : Zone → Zone → Prop
  | same {z : Zone} : AlikeZones c o seen past z z
  | cut {p : List Char} (hstart : headerStart seen past ≤ o) :
      AlikeZones c o seen past (.outside p)
        (.outside ((seen.drop o).reverse ++ ['\n']))
  | noted {h : Option Header} {s x : List Char} :
      AlikeZones c o seen past (.inside h (s ++ '\n' :: x))
        (.inside h (s ++ '\n' :: (c.reverse ++ '\n' :: x)))

/-- A walk without the line and one with it, at the same place behind it. -/
structure Alike (c : List Char) (o : Nat) (seen : List Char) (w w' : Course) :
    Prop where
  traced : Traced seen w
  reached : o ≤ seen.length
  quoted : w.quoted = w'.quoted
  skip : w.skip = w'.skip
  zones : AlikeZones c o seen w.past w.zone w'.zone
  said : (blocksAmong w.past).map Block.said = (blocksAmong w'.past).map Block.said

/-- Every header text that begins before an offset and reaches beyond it has
the header of its part beyond it. -/
def HeadersBeyond (text : List Char) (marks : List (Nat × Mark)) (o : Nat) :
    Prop :=
  ∀ before i after, marks = before ++ (i, .opened) :: after →
    headerStart (text.take i) before ≤ o → o ≤ i →
    Header.find? ((text.take i).drop o) = Header.find? (headerText text before i)

namespace AlikeZones

variable {o : Nat} {seen : List Char} {past : List (Nat × Mark)} {z z' : Zone}

/-- Zones that are alike are outside any block alike. -/
theorem isOutside_eq (hz : AlikeZones c o seen past z z') :
    z.isOutside = z'.isOutside := by
  cases hz <;> rfl

/-- A character that is read, unless it ends a comment line. -/
theorem push (hz : AlikeZones c o seen past z z') (ho : o ≤ seen.length)
    {d : Char} (hd : afterComment (seen ++ [d]) = afterComment seen) :
    AlikeZones c o (seen ++ [d]) past (z.push d) (z'.push d) := by
  cases hz with
  | same => exact .same
  | cut hstart =>
      have hcut : ((seen ++ [d]).drop o).reverse ++ ['\n']
          = d :: ((seen.drop o).reverse ++ ['\n']) := by
        rw [List.drop_append_of_le_length ho]
        simp
      unfold Zone.push
      simp only
      rw [← hcut]
      refine .cut ?_
      unfold headerStart at hstart ⊢
      rwa [hd]
  | @noted h s x => exact .noted (s := d :: s)

/-- A comment line. -/
theorem passComment (hz : AlikeZones c o seen past z z') (line : List Char) :
    AlikeZones c o (seen ++ (line ++ ['\n'])) past
      ((z.passComment line).push '\n') ((z'.passComment line).push '\n') := by
  cases hz with
  | same => exact .same
  | cut => exact .same
  | @noted h s x =>
      have hpass : ∀ t : List Char,
          (((Zone.inside h (s ++ t)).passComment line).push '\n')
            = .inside h (('\n' :: (line.reverse ++ s)) ++ t) := by
        intro t
        simp [Zone.passComment, Zone.push]
      rw [hpass, hpass]
      exact .noted

/-- An opening brace does the same to both walks if a header text across the
line has its header behind it. -/
theorem openBrace (hz : AlikeZones c o seen past z z')
    (hheader : ∀ p, z = .outside p → headerStart seen past ≤ o →
      Header.find? (seen.drop o) = Header.find? p.reverse) :
    AlikeZones c o (seen ++ ['\x7b'])
        (past ++ ((z.brace '\x7b').2.map (seen.length, ·)).toList)
        (z.brace '\x7b').1 (z'.brace '\x7b').1
      ∧ (z.brace '\x7b').2 = (z'.brace '\x7b').2 := by
  cases hz with
  | same => exact ⟨.same, rfl⟩
  | @cut p hstart =>
      have hfind : Header.find? ((seen.drop o).reverse ++ ['\n']).reverse
          = Header.find? p.reverse := by
        rw [← hheader p rfl hstart, List.reverse_append, List.reverse_reverse]
        exact Header.find?_blanks_append (allBlank_singleton (by decide))
      rw [Zone.brace_outside_open, Zone.brace_outside_open, hfind]
      exact ⟨.same, rfl⟩
  | @noted h s x =>
      cases h with
      | some header => exact ⟨.noted (s := '\x7b' :: s), rfl⟩
      | none =>
          have hline : ∀ t, Header.find? (Zone.lastLine (s ++ '\n' :: t))
              = Header.find? (Zone.lastLine s) :=
            fun t => congrArg Header.find? (lastLine_append_break s t)
          cases hown : Header.find? (Zone.lastLine s) with
          | none =>
              rw [Zone.brace_unheaded_open ((hline _).trans hown),
                Zone.brace_unheaded_open ((hline _).trans hown)]
              exact ⟨.noted (s := '\x7b' :: s), rfl⟩
          | some header =>
              rw [Zone.brace_unheaded_reopen ((hline _).trans hown),
                Zone.brace_unheaded_reopen ((hline _).trans hown)]
              exact ⟨.same, rfl⟩

/-- A closing brace does the same to both walks, but for the line in a
body. -/
theorem closeBrace (hz : AlikeZones c o seen past z z') (ho : o ≤ seen.length)
    (hc : isComment c = true) (hbreak : '\n' ∉ c) :
    AlikeZones c o (seen ++ ['\x7d'])
        (past ++ ((z.brace '\x7d').2.map (seen.length, ·)).toList)
        (z.brace '\x7d').1 (z'.brace '\x7d').1
      ∧ ((z.brace '\x7d').2.bind Mark.block?).map Block.said
        = ((z'.brace '\x7d').2.bind Mark.block?).map Block.said := by
  cases hz with
  | same => exact ⟨.same, rfl⟩
  | @cut p hstart =>
      rw [Zone.brace_outside_close, Zone.brace_outside_close, Option.map_none,
        Option.toList_none, List.append_nil]
      exact ⟨(AlikeZones.cut hstart).push ho
        (afterComment_append_of_ne (by decide) seen), rfl⟩
  | @noted h s x =>
      cases h with
      | none => exact ⟨.same, rfl⟩
      | some header =>
          refine ⟨.same, ?_⟩
          rw [Zone.brace_headed_close, Zone.brace_headed_close]
          have hbody := contentLines_insert hc hbreak x.reverse s.reverse
          have hrev : (s ++ '\n' :: x).reverse = x.reverse ++ '\n' :: s.reverse := by
            simp
          have hrev' : (s ++ '\n' :: (c.reverse ++ '\n' :: x)).reverse
              = x.reverse ++ '\n' :: (c ++ '\n' :: s.reverse) := by
            simp
          unfold Block.said Block.bare BareBlock.withoutComments
          simp only [Option.bind_some, Mark.block?, Option.map_some, hrev, hrev', hbody]

/-- A brace completes the same block in both walks, but for the line in its
body. -/
theorem brace (hz : AlikeZones c o seen past z z') (ho : o ≤ seen.length)
    (hc : isComment c = true) (hbreak : '\n' ∉ c) {d : Char}
    (hd : Header.isBrace d = true)
    (hheader : ∀ p, z = .outside p → headerStart seen past ≤ o → d = '\x7b' →
      Header.find? (seen.drop o) = Header.find? p.reverse) :
    AlikeZones c o (seen ++ [d])
        (past ++ ((z.brace d).2.map (seen.length, ·)).toList)
        (z.brace d).1 (z'.brace d).1
      ∧ ((z.brace d).2.bind Mark.block?).map Block.said
        = ((z'.brace d).2.bind Mark.block?).map Block.said := by
  rcases eq_of_isBrace hd with rfl | rfl
  · obtain ⟨hzones, hmarks⟩ :=
      hz.openBrace fun p hp hstart => hheader p hp hstart rfl
    exact ⟨hzones, by rw [hmarks]⟩
  · exact hz.closeBrace ho hc hbreak

end AlikeZones

namespace Alike

variable {o : Nat} {text seen s more cs : List Char} {marks : List (Nat × Mark)}
  {w w' v v' : Course} {d : Char}

/-- A character. -/
theorem step (h : Alike c o seen w w') (hc : isComment c = true)
    (hbreak : '\n' ∉ c) (hd : d ≠ '\n')
    (htext : text = seen ++ (d :: cs ++ '\n' :: more))
    (hmarks : (w.step seen.length d cs).past <+: marks)
    (hbeyond : HeadersBeyond text marks o) (offset' : Nat) :
    Alike c o (seen ++ [d]) (w.step seen.length d cs) (w'.step offset' d cs) := by
  have htraced := h.traced.step hd cs
  have hreached : o ≤ (seen ++ [d]).length := by
    rw [List.length_append]
    exact Nat.le_add_right_of_le h.reached
  rcases Course.step_together h.quoted h.skip h.zones.isOutside_eq seen.length
      offset' d cs
    with ⟨quoted, skip, hread, hread'⟩ | ⟨hbrace, hmeet, hmeet'⟩
  · rw [hread] at htraced ⊢
    rw [hread']
    exact ⟨htraced, hreached, rfl, rfl,
      h.zones.push h.reached (afterComment_append_of_ne hd seen), h.said⟩
  · rw [hmeet] at htraced hmarks ⊢
    rw [hmeet']
    have hheader : ∀ p, w.zone = .outside p → headerStart seen w.past ≤ o →
        d = '\x7b' → Header.find? (seen.drop o) = Header.find? p.reverse := by
      rintro p hzone hstart rfl
      rw [hzone, Zone.brace_outside_open] at hmarks
      obtain ⟨after, hafter⟩ := hmarks
      have htake : text.take seen.length = seen := by
        rw [htext, List.take_left]
      have hfind := hbeyond w.past seen.length after (by rw [← hafter]; simp)
        (by rwa [htake]) h.reached
      rwa [htake, headerText_length htext, ← h.traced.pending p hzone] at hfind
    obtain ⟨hzones, hblocks⟩ := h.zones.brace h.reached hc hbreak hbrace hheader
    refine ⟨htraced, hreached, rfl, rfl, hzones, ?_⟩
    rw [blocksAmong_mark, blocksAmong_mark, List.map_append, List.map_append,
      h.said, ← Option.toList_map, ← Option.toList_map, hblocks]

/-- The end of a line that is no comment. -/
theorem newLine (h : Alike c o seen w w')
    (hline : isComment (lastPart seen) = false) :
    Alike c o (seen ++ ['\n']) w.newLine w'.newLine where
  traced := h.traced.newLine hline
  reached := by
    rw [List.length_append]
    exact Nat.le_add_right_of_le h.reached
  quoted := rfl
  skip := rfl
  zones := by
    refine h.zones.push h.reached ?_
    rw [afterComment_append_break, hline]
    rfl
  said := h.said

/-- A comment line of the text itself. -/
theorem passComment (h : Alike c o seen w w') {line : List Char}
    (hseen : lastPart seen = []) (hline : '\n' ∉ line)
    (hcomment : isComment line = true) :
    Alike c o (seen ++ (line ++ ['\n'])) (w.passComment line).newLine
      (w'.passComment line).newLine where
  traced := h.traced.passComment hseen hline hcomment
  reached := by
    rw [List.length_append]
    exact Nat.le_add_right_of_le h.reached
  quoted := rfl
  skip := rfl
  zones := h.zones.passComment line
  said := h.said

/-- Walks that are alike stay so over the same lines. -/
theorem sideBySide (hc : isComment c = true) (hbreak : '\n' ∉ c)
    (hbeyond : HeadersBeyond text marks o) (shift : Nat) :
    SideBySide text marks shift (Alike c o)
      (fun seen w w' _ => Alike c o seen w w') where
  start _ _ _ _ _ h := h
  step _ _ _ _ _ _ htext hd hmarks h := h.step hc hbreak hd htext hmarks hbeyond _
  finish _ _ _ hline h := h.newLine hline
  comment _ _ _ _ hseen hline hcomment h := h.passComment hseen hline hcomment

end Alike

-- ========================================================== the insertion

variable {above below : List (List Char)}

/-- The walk over lines, begun outside any block. -/
def walkOver (ls : List (List Char)) : Course :=
  (Course.mk false 0 (.outside []) []).runLines 0 ls

/-- Behind lines no quote is open and nothing is to be skipped. -/
theorem walkOver_fresh (ls : List (List Char)) :
    (walkOver ls).quoted = false ∧ (walkOver ls).skip = 0 := by
  unfold walkOver
  rw [Course.runLines_start]
  exact ⟨rfl, rfl⟩

/-- Where the comment line is put in. -/
def lineOffset (above : List (List Char)) : Nat :=
  (above.flatMap (· ++ ['\n'])).length

theorem lastPart_flatMap (ls : List (List Char)) :
    lastPart (ls.flatMap (· ++ ['\n'])) = [] := by
  rcases List.eq_nil_or_concat ls with rfl | ⟨front, line, rfl⟩
  · rfl
  · rw [List.concat_eq_append, List.flatMap_append, List.flatMap_singleton,
      ← List.append_assoc]
    exact lastPart_append_break _

/-- Behind lines a walk stands behind a line break. -/
theorem exists_zone_runLines (w : Course) (offset : Nat) (h : above ≠ []) :
    ∃ z : Zone, (w.runLines offset above).zone = z.push '\n' := by
  induction above generalizing w offset with
  | nil => exact absurd rfl h
  | cons line ls ih =>
      rw [Course.runLines]
      by_cases hls : ls = []
      · rw [hls]
        exact ⟨_, rfl⟩
      · exact ih _ _ hls

/-- Behind the line the walks stand alike. -/
theorem alike_walkOver (h : ∀ l ∈ above, '\n' ∉ l) :
    Alike c (lineOffset above) (above.flatMap (· ++ ['\n'])) (walkOver above)
      ((walkOver above).passComment c).newLine := by
  have htraced : Traced (above.flatMap (· ++ ['\n'])) (walkOver above) :=
    traced_runLines h
  obtain ⟨hquoted, hskip⟩ := walkOver_fresh above
  refine ⟨htraced, Nat.le_refl _, hquoted, hskip, ?_, rfl⟩
  have hstart := htraced.headerStart_le
  have hcut : ∀ p, (walkOver above).zone = .outside p →
      AlikeZones c (lineOffset above) (above.flatMap (· ++ ['\n']))
        (walkOver above).past (.outside p)
        (((Zone.outside p).passComment c).push '\n') := by
    intro p _
    have hzone := AlikeZones.cut (c := c) (p := p) hstart
    rwa [List.drop_length] at hzone
  by_cases hnil : above = []
  · subst hnil
    exact hcut [] rfl
  · obtain ⟨z, hz⟩ := exists_zone_runLines ⟨false, 0, .outside [], []⟩ 0 hnil
    have hz' : (walkOver above).zone = z.push '\n' := hz
    unfold Course.newLine Course.passComment
    simp only
    rw [hz'] at hcut ⊢
    cases z with
    | outside p => exact hcut _ rfl
    | inside header x => exact .noted (s := [])

/-- A comment line changes the blocks of a text only in their comments. -/
theorem map_said_insert {t t' : List Char} (hlines : lines t = above ++ below)
    (hlines' : lines t' = above ++ c :: below) (hc : isComment c = true)
    (hbeyond : HeadersBeyond t (scanText t).2 (lineOffset above)) :
    (blocksIn t).map Block.said = (blocksIn t').map Block.said := by
  have hline : ∀ l ∈ above ++ below, '\n' ∉ l := fun l hl =>
    not_mem_of_mem_pieces (hlines ▸ hl)
  have hbreak : '\n' ∉ c := not_mem_of_mem_pieces (s := t') (by
    show c ∈ lines t'
    rw [hlines']
    simp)
  have htext : t ++ ['\n'] = above.flatMap (· ++ ['\n'])
      ++ below.flatMap (· ++ ['\n']) := by
    rw [← List.flatMap_append, ← hlines, flatMap_lines]
  have hplain : (walkOver above).runLines (lineOffset above) below
      = ⟨false, 0, (scanText t).1, (scanText t).2⟩ := by
    rw [← Course.runLines_text, hlines, Course.runLines_append, Nat.zero_add]
    rfl
  have hnoted : ((walkOver above).passComment c).newLine.runLines
      (lineOffset above + (c.length + 1)) below
      = ⟨false, 0, (scanText t').1, (scanText t').2⟩ := by
    rw [← Course.runLines_text, hlines', Course.runLines_append, Nat.zero_add,
      Course.runLines, if_pos hc]
    rfl
  have hmarks : HeadersBeyond (t ++ ['\n']) (scanText t).2 (lineOffset above) := by
    intro before i after hsplit
    have hi : i ≤ t.length := by
      have hlt := (walked_scanText t).bound (i, .opened) (by simp [hsplit])
      rw [List.length_append, List.length_singleton] at hlt
      omega
    rw [headerText_append_break hi, List.take_append_of_le_length hi]
    exact hbeyond before i after hsplit
  have hrun := (Alike.sideBySide hc hbreak hmarks (c.length + 1)).runLines
    (alike_walkOver fun l hl => hline l (List.mem_append_left _ hl)) htext
    (lastPart_flatMap above) (fun l hl => hline l (List.mem_append_right _ hl))
    ⟨[], by rw [List.append_nil, ← lineOffset, hplain]⟩
  rw [← lineOffset, hplain, hnoted] at hrun
  exact hrun.said

-- ============================================================ normal form

section normal

variable {s t t' l : List Char} {d : Char}

/-- Every character but a line break is on some line. -/
theorem exists_line_of_mem (hd : d ∈ s) (hne : d ≠ '\n') :
    ∃ l ∈ lines s, d ∈ l := by
  have hmem : d ∈ (lines s).flatMap (· ++ ['\n']) := by
    rw [flatMap_lines]
    exact List.mem_append_left _ hd
  obtain ⟨l, hl, hdl⟩ := List.mem_flatMap.mp hmem
  refine ⟨l, hl, (List.mem_append.mp hdl).resolve_right fun hbreak => hne ?_⟩
  exact List.mem_singleton.mp hbreak

/-- The characters of a line are those of the text. -/
theorem mem_of_mem_line (hl : l ∈ lines s) (hd : d ∈ l) : d ∈ s := by
  have hmem : d ∈ s ++ ['\n'] := by
    rw [← flatMap_lines]
    exact List.mem_flatMap.mpr ⟨l, hl, List.mem_append_left _ hd⟩
  refine (List.mem_append.mp hmem).resolve_right fun hbreak => ?_
  rw [List.mem_singleton.mp hbreak] at hd
  exact not_mem_of_mem_pieces hl hd

/-- A text starts with what its first line starts with. -/
theorem head?_eq_some_iff_of_ne (hd : d ≠ '\n') :
    s.head? = some d ↔ ∃ l rest, lines s = l :: rest ∧ l.head? = some d := by
  cases s with
  | nil =>
      constructor
      · intro h
        cases h
      · rintro ⟨l, rest, hlines, hl⟩
        injection hlines with hnil _
        rw [← hnil] at hl
        cases hl
  | cons e s =>
      obtain ⟨part, rest, hs⟩ := List.exists_cons_of_ne_nil (pieces_ne_nil '\n' s)
      by_cases he : e = '\n'
      · subst he
        refine ⟨fun h => absurd (Option.some.inj h).symm hd, ?_⟩
        rintro ⟨l, rest, hlines, hl⟩
        rw [lines, pieces_cons_sep] at hlines
        injection hlines with hnil _
        rw [← hnil] at hl
        cases hl
      · have hfirst : lines (e :: s) = (e :: part) :: rest := pieces_cons_of_ne he hs
        rw [hfirst]
        constructor
        · intro h
          exact ⟨_, _, rfl, h⟩
        · rintro ⟨l, rest', hlines, hl⟩
          injection hlines with hl' _
          rw [← hl'] at hl
          exact hl

/-- A comment line starts with no byte order mark. -/
theorem head?_ne_of_isComment (h : isComment c = true) :
    c.head? ≠ some '\uFEFF' := by
  intro hhead
  obtain ⟨r, rfl⟩ := List.head?_eq_some_iff.mp hhead
  unfold isComment at h
  rw [trimStart_cons_of_ink (by decide)] at h
  exact absurd (Option.some.inj (beq_iff_eq.mp h)) (by decide)

/-- A text stays normalized with a comment line in it. -/
theorem normalize_insert (ht : normalize t = t) (hlines : lines t = above ++ below)
    (hlines' : lines t' = above ++ c :: below) (hc : isComment c = true)
    (hreturn : '\r' ∉ c) : normalize t' = t' := by
  obtain ⟨hplain, hmark⟩ := normalize_eq_self_iff.mp ht
  refine normalize_eq_self_iff.mpr ⟨fun hmem => ?_, fun hhead => ?_⟩
  · obtain ⟨l, hl, hd⟩ := exists_line_of_mem hmem (by decide)
    rw [hlines', List.mem_append, List.mem_cons] at hl
    rcases hl with hl | rfl | hl
    · exact hplain (mem_of_mem_line (hlines ▸ List.mem_append_left _ hl) hd)
    · exact hreturn hd
    · exact hplain (mem_of_mem_line (hlines ▸ List.mem_append_right _ hl) hd)
  · obtain ⟨l, rest, hfirst, hl⟩ := (head?_eq_some_iff_of_ne (by decide)).mp hhead
    rw [hlines'] at hfirst
    cases above with
    | nil =>
        injection hfirst with hcl _
        exact head?_ne_of_isComment hc (hcl ▸ hl)
    | cons first above =>
        injection hfirst with hfl _
        exact hmark ((head?_eq_some_iff_of_ne (by decide)).mpr
          ⟨first, _, hlines, hfl ▸ hl⟩)

end normal

-- ============================================================= the theorem

/-- A comment line between the lines of a text changes nothing of what is
read from it, as long as every header text that reaches across it has the
header of its part behind it. -/
theorem Diagram.parse_insert_comment {t t' : List Char} (ht : normalize t = t)
    (hlines : lines t = above ++ below) (hlines' : lines t' = above ++ c :: below)
    (hc : isComment c = true) (hreturn : '\r' ∉ c)
    (hbeyond : HeadersBeyond t (scanText t).2 (lineOffset above)) :
    parse (String.ofList t') = parse (String.ofList t) := by
  have ht' := normalize_insert ht hlines hlines' hc hreturn
  have hblocks := ofParts_said (map_said_insert hlines hlines' hc hbeyond)
  unfold parse ofNormalized findRelations
  rw [String.toList_ofList, String.toList_ofList, ht, ht', hlines, hlines',
    relationsOfLines_insert hc, funext hblocks]

/-- A comment line within a body. -/
theorem Diagram.parse_insert_comment_in_body :
    let t := "class A \x7b\n+x: int\n\x7d\n".toList
    let t' := "class A \x7b\n  ' note \x7d\n+x: int\n\x7d\n".toList
    parse (String.ofList t') = parse (String.ofList t)
      ∧ parse (String.ofList t)
        = .ok { classes := [{ name := "A", attributes := [⟨"x", some "int", .pub⟩] }] } := by
  intro t t'
  have hbeyond : HeadersBeyond t (scanText t).2
      (lineOffset ["class A \x7b".toList]) := by
    have hmarks : (scanText t).2 = [(8, .opened),
        (18, .closed ⟨.classBlock, ['A'], "\n+x: int\n".toList⟩)] := by
      decide +kernel
    have hoffset : lineOffset ["class A \x7b".toList] = 10 := by decide +kernel
    intro before i after hsplit _ hi
    rw [hmarks] at hsplit
    rw [hoffset] at hi
    rcases before with _ | ⟨b, before⟩
    · simp only [List.nil_append, List.cons.injEq, Prod.mk.injEq] at hsplit
      omega
    · cases before <;> simp at hsplit
  have hlines : lines t = ["class A \x7b".toList]
      ++ ["+x: int".toList, "\x7d".toList, []] := by
    decide +kernel
  have hlines' : lines t' = ["class A \x7b".toList] ++ "  ' note \x7d".toList
      :: ["+x: int".toList, "\x7d".toList, []] := by
    decide +kernel
  exact ⟨parse_insert_comment (by decide +kernel) hlines hlines' (by decide +kernel)
    (by decide +kernel) hbeyond, by decide +kernel⟩

/-- A comment line between a header and its brace takes the class away. -/
theorem Diagram.parse_insert_comment_before_brace :
    let t := "class A\n\x7b\n\x7d\n".toList
    let t' := "class A\n' note\n\x7b\n\x7d\n".toList
    normalize t = t ∧ isComment "' note".toList = true
      ∧ lines t = ["class A".toList] ++ ["\x7b".toList, "\x7d".toList, []]
      ∧ lines t' = ["class A".toList] ++ "' note".toList ::
        ["\x7b".toList, "\x7d".toList, []]
      ∧ parse (String.ofList t) = .ok { classes := [{ name := "A" }] }
      ∧ parse (String.ofList t') = .ok {} := by
  decide +kernel

end ApiScaffold
