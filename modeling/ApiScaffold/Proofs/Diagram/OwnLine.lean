/-
Which declaration a body belongs to. An opening brace outside any block
takes the header that the text before it ends with, and that text reaches
back to the last brace that ended a block or the last comment line, so
declarations without a body stand in it too.

`Walked` says what a walk has done by the time it has read some text: the
text in which a header is looked for is the end of what was read since the
last closing brace, cut at the end of a line if at all, and every block
that was opened is being read still or was closed by the brace that did
something next. One lemma for each thing a walk does to a zone keeps it
(`Walked.push`, `Walked.brace`, `Walked.comment`), and induction over
characters and lines takes it to the end of the text.

The rest is about headers alone (`Declaration`): a declaration on the line
of a brace is the header found there, unless its stereotype ends one that
an earlier line has left open.
-/
import ApiScaffold.Proofs.Diagram.Declaration
import ApiScaffold.Proofs.Diagram.Walk
import Mathlib.Data.List.Induction

namespace ApiScaffold

-- =================================================== statement vocabulary

/-- Whether a mark is that of a brace that ended a block. -/
def Mark.closes : Mark → Bool
  | .closed _ | .discarded => true
  | .opened | .reopened => false

/-- The offset after the last brace that ended a block. -/
def afterClosing (marks : List (Nat × Mark)) : Nat :=
  marks.foldl (fun start (i, mark) => if mark.closes then i + 1 else start) 0

/-- The text before an offset, from the last brace on that ended a
block. -/
def sinceClosing (text : List Char) (before : List (Nat × Mark)) (i : Nat) :
    List Char :=
  (text.take i).drop (afterClosing before)

/-- The part of a text that stands on its last line. -/
def lastPart (s : List Char) : List Char := Zone.lastLine s.reverse

/-- The lines of a text before its last one. -/
def earlierPart (s : List Char) : List Char :=
  (s.reverse.dropWhile (· ≠ '\n')).reverse

-- ============================================================ the last line

theorem earlierPart_append_lastPart (s : List Char) :
    earlierPart s ++ lastPart s = s := by
  unfold earlierPart lastPart Zone.lastLine
  rw [← List.reverse_append, List.takeWhile_append_dropWhile,
    List.reverse_reverse]

/-- A line break ends the lines before the last one. -/
theorem earlierPart_eq_nil_or (s : List Char) :
    earlierPart s = [] ∨ BlankEnd (earlierPart s) := by
  unfold earlierPart
  cases h : s.reverse.dropWhile (· ≠ '\n') with
  | nil => exact Or.inl rfl
  | cons c r =>
      have hc := List.head?_dropWhile_not (· ≠ '\n') s.reverse
      rw [h] at hc
      have hbreak : c = '\n' := by simpa using hc
      exact Or.inr ⟨c, by simp, by rw [hbreak]; decide⟩

/-- What stands before a line break does not touch the last line. -/
theorem parts_append_break (y s : List Char) :
    lastPart (y ++ '\n' :: s) = lastPart s
      ∧ earlierPart (y ++ '\n' :: s) = y ++ '\n' :: earlierPart s := by
  have hstop : ∀ l r : List Char,
      (l ++ '\n' :: r).takeWhile (· ≠ '\n') = l.takeWhile (· ≠ '\n')
        ∧ (l ++ '\n' :: r).dropWhile (· ≠ '\n')
          = l.dropWhile (· ≠ '\n') ++ '\n' :: r := by
    intro l r
    induction l with
    | nil => simp
    | cons c l ih => by_cases hc : c = '\n' <;> simp_all
  unfold lastPart earlierPart Zone.lastLine
  rw [List.reverse_append, List.reverse_cons, List.append_assoc,
    List.singleton_append, (hstop _ _).1, (hstop _ _).2]
  simp

-- ============================================================== the walk

/-- A text in which a header is looked for, last character first, among
the text since the last closing brace: all of it, or its end from the end
of a line on. -/
def Pending (since p : List Char) : Prop :=
  ∃ y, since = y ++ p.reverse ∧ (y = [] ∨ p.getLast? = some '\n')

/-- The last line of the text in which a header is looked for is that of
the text since the last closing brace. -/
theorem Pending.parts {since p : List Char} (h : Pending since p) :
    ∃ x y, p.reverse = x ++ lastPart since ∧ earlierPart since = y ++ x
      ∧ (x = [] ∨ BlankEnd x)
      ∧ (y = [] ∨ ∀ c ∈ x.head?, isWord c = false) := by
  obtain ⟨y, rfl, hcut⟩ := h
  rcases hcut with rfl | hlast
  · rw [List.nil_append]
    exact ⟨earlierPart p.reverse, [], (earlierPart_append_lastPart _).symm, rfl,
      earlierPart_eq_nil_or _, Or.inl rfl⟩
  · obtain ⟨s, hs⟩ : ∃ s, p.reverse = '\n' :: s := by
      rw [← List.head?_reverse] at hlast
      exact List.head?_eq_some_iff.mp hlast
    have hbreak := parts_append_break [] s
    rw [List.nil_append, List.nil_append] at hbreak
    have hend := earlierPart_eq_nil_or ('\n' :: s)
    rw [hbreak.2] at hend
    rw [hs, (parts_append_break y s).1, (parts_append_break y s).2]
    refine ⟨'\n' :: earlierPart s, y, ?_, rfl, hend, Or.inr fun c hc => ?_⟩
    · rw [List.cons_append, earlierPart_append_lastPart]
    · injection hc with hc
      rw [← hc]
      decide

/-- What has become of a block that was opened at an offset with a header:
its body is being read, or the next brace that did something has closed
it. -/
def Followed (seen : List Char) (i : Nat) (h : Header)
    (after : List (Nat × Mark)) (zone : Zone) : Prop :=
  (after = [] ∧ zone = .inside (some h) (seen.drop (i + 1)).reverse)
    ∨ ∃ j rest, after = (j, .closed ⟨h.keyword, h.name,
        (seen.take j).drop (i + 1)⟩) :: rest

/-- What holds when a walk has read a text, made marks and come to a
zone. -/
structure Walked (seen : List Char) (past : List (Nat × Mark)) (zone : Zone) :
    Prop where
  bound : ∀ m ∈ past, m.1 < seen.length
  pending : ∀ p, zone = .outside p → Pending (seen.drop (afterClosing past)) p
  opened : ∀ before i after, past = before ++ (i, .opened) :: after →
    ∃ p, Pending (sinceClosing seen before i) p
      ∧ ∀ h, Header.find? p.reverse = some h → Followed seen i h after zone

theorem afterClosing_concat (past : List (Nat × Mark)) (i : Nat) (m : Mark) :
    afterClosing (past ++ [(i, m)])
      = if m.closes then i + 1 else afterClosing past := by
  unfold afterClosing
  rw [List.foldl_append]
  rfl

theorem afterClosing_le {seen : List Char} {past : List (Nat × Mark)}
    (h : ∀ m ∈ past, m.1 < seen.length) : afterClosing past ≤ seen.length := by
  induction past using List.reverseRecOn with
  | nil => exact Nat.zero_le _
  | append_singleton past m ih =>
      obtain ⟨i, m⟩ := m
      rw [afterClosing_concat]
      split
      · exact h (i, m) (by simp)
      · exact ih fun m' hm' => h m' (List.mem_append_left _ hm')

variable {seen : List Char} {past : List (Nat × Mark)} {zone : Zone}

theorem sinceClosing_append {before : List (Nat × Mark)} {i : Nat}
    (hi : i < seen.length) (s : List Char) :
    sinceClosing (seen ++ s) before i = sinceClosing seen before i := by
  unfold sinceClosing
  rw [List.take_append_of_le_length (by omega)]

/-- More of a body is read. -/
theorem Followed.inside {i : Nat} {h : Header} {after : List (Nat × Mark)}
    (hf : Followed seen i h after zone) (hi : i < seen.length)
    (hbound : ∀ m ∈ after, m.1 < seen.length) {s : List Char} {zone' : Zone}
    (hzone : ∀ content, zone = .inside (some h) content →
      zone' = .inside (some h) (s.reverse ++ content)) :
    Followed (seen ++ s) i h after zone' := by
  rcases hf with ⟨rfl, hin⟩ | ⟨j, rest, rfl⟩
  · refine Or.inl ⟨rfl, ?_⟩
    rw [hzone _ hin, List.drop_append_of_le_length (by omega),
      List.reverse_append]
  · have hj := hbound _ (List.mem_cons_self ..)
    refine Or.inr ⟨j, rest, ?_⟩
    rw [List.take_append_of_le_length (Nat.le_of_lt hj)]

/-- A step without a mark: the text read joins the body, if there is
one. -/
theorem Walked.read (hw : Walked seen past zone) {s : List Char} {zone' : Zone}
    (hpending : ∀ p, zone' = .outside p →
      Pending ((seen ++ s).drop (afterClosing past)) p)
    (hinside : ∀ h content, zone = .inside (some h) content →
      zone' = .inside (some h) (s.reverse ++ content)) :
    Walked (seen ++ s) past zone' where
  bound m hm := by
    rw [List.length_append]
    exact Nat.lt_add_right _ (hw.bound m hm)
  pending := hpending
  opened before i after hsplit := by
    obtain ⟨p, hp, hfind⟩ := hw.opened before i after hsplit
    have hi : i < seen.length := hw.bound (i, .opened) (by simp [hsplit])
    refine ⟨p, by rwa [sinceClosing_append hi], fun h hh => ?_⟩
    exact (hfind h hh).inside hi (fun m hm => hw.bound m (by simp [hsplit, hm]))
      (hinside h)

/-- A character that belongs to the text kept. -/
theorem Walked.push (hw : Walked seen past zone) (c : Char) :
    Walked (seen ++ [c]) past (zone.push c) := by
  refine hw.read (fun p hp => ?_) (fun h content hzone => by rw [hzone]; rfl)
  cases zone with
  | inside header content => cases hp
  | outside q =>
      injection hp with hp
      subst hp
      obtain ⟨y, hy, hlast⟩ := hw.pending q rfl
      refine ⟨y, ?_, hlast.imp_right fun hq => ?_⟩
      · rw [List.drop_append_of_le_length (afterClosing_le hw.bound), hy]
        simp
      · rw [List.getLast?_cons, hq]
        rfl

/-- A comment line with its line break. -/
theorem Walked.comment (hw : Walked seen past zone) (line : List Char) :
    Walked (seen ++ (line ++ ['\n'])) past ((zone.passComment line).push '\n') := by
  refine hw.read (fun p hp => ?_) (fun h content hzone => ?_)
  · cases zone with
    | inside header content => cases hp
    | outside q =>
        injection hp with hp
        subst hp
        refine ⟨(seen ++ line).drop (afterClosing past), ?_, Or.inr rfl⟩
        have hle := afterClosing_le hw.bound
        rw [← List.append_assoc, List.drop_append_of_le_length
          (by rw [List.length_append]; omega)]
        rfl
  · rw [hzone]
    simp [Zone.passComment, Zone.push]

/-- A mark is that of the zone: an opening brace takes the header that the
text before it ends with, a closing one completes the body read and leaves
nothing pending. -/
theorem Walked.mark (hw : Walked seen past zone) (c : Char) {m : Mark}
    {zone' : Zone} (houtside : ∀ p, zone' = .outside p → p = [] ∧ m.closes = true)
    (hopened : m = .opened → ∃ p, zone = .outside p
      ∧ zone' = .inside (Header.find? p.reverse) [])
    (hinside : ∀ h content, zone = .inside (some h) content →
      m = .closed ⟨h.keyword, h.name, content.reverse⟩) :
    Walked (seen ++ [c]) (past ++ [(seen.length, m)]) zone' where
  bound m' hm' := by
    rw [List.length_append, List.length_singleton]
    rcases List.mem_append.mp hm' with hm' | hm'
    · exact Nat.lt_succ_of_lt (hw.bound m' hm')
    · rw [List.mem_singleton.mp hm']
      exact Nat.lt_succ_self _
  pending p hp := by
    obtain ⟨rfl, hm⟩ := houtside p hp
    refine ⟨[], ?_, Or.inl rfl⟩
    rw [afterClosing_concat, if_pos hm]
    simp
  opened before i after hsplit := by
    -- the mark is that of the block itself, or comes after those of a block
    -- that was opened before
    rcases List.eq_nil_or_concat after with rfl | ⟨after, last, rfl⟩
    · obtain ⟨rfl, hlast⟩ := List.append_inj' hsplit rfl
      injection hlast with hlast
      injection hlast with hi hm
      obtain ⟨p, hzone, rfl⟩ := hopened hm
      refine ⟨p, ?_, fun h hh => Or.inl ⟨rfl, ?_⟩⟩
      · rw [← hi]
        unfold sinceClosing
        rw [List.take_left]
        exact hw.pending p hzone
      · rw [hh, ← hi]
        simp
    · rw [List.concat_eq_append, ← List.cons_append, ← List.append_assoc]
        at hsplit
      obtain ⟨hpast, hlast⟩ := List.append_inj' hsplit rfl
      injection hlast with hlast
      rw [List.concat_eq_append, ← hlast]
      obtain ⟨p, hp, hfind⟩ := hw.opened before i after hpast
      have hi : i < seen.length := hw.bound (i, .opened) (by simp [hpast])
      refine ⟨p, by rwa [sinceClosing_append hi], fun h hh => Or.inr ?_⟩
      rcases hfind h hh with ⟨rfl, hin⟩ | ⟨j, rest, rfl⟩
      · refine ⟨seen.length, [], ?_⟩
        rw [hinside h _ hin, List.reverse_reverse, List.take_left]
        rfl
      · have hj : j < seen.length := hw.bound (j, _) (by
          rw [hpast]
          exact List.mem_append_right _
            (List.mem_cons_of_mem _ (List.mem_cons_self ..)))
        refine ⟨j, rest ++ [(seen.length, m)], ?_⟩
        rw [List.take_append_of_le_length (Nat.le_of_lt hj)]
        rfl

/-- A brace with its mark, if it has one. -/
theorem Walked.brace (hw : Walked seen past zone) (c : Char) :
    Walked (seen ++ [c])
      (past ++ ((zone.brace c).2.map (seen.length, ·)).toList)
      (zone.brace c).1 := by
  have hpush : Walked (seen ++ [c])
      (past ++ ((none : Option Mark).map (seen.length, ·)).toList)
      (zone.push c) := by
    rw [Option.map_none, Option.toList_none, List.append_nil]
    exact hw.push c
  unfold Zone.brace
  split
  next p =>
    split
    · -- a block starts
      refine hw.mark c (fun q hq => by cases hq) (fun _ => ⟨p, rfl, rfl⟩) ?_
      intro h content hzone
      cases hzone
    · exact hpush
  next content =>
    split
    · split
      next h hfind =>
        -- a block starts over within one without a header
        refine hw.mark c (fun q hq => by cases hq) (fun hm => by cases hm) ?_
        intro h' content' hzone
        cases hzone
      next => exact hpush
    · -- a block without a header ends
      refine hw.mark c (fun q hq => ?_) (fun hm => by cases hm) ?_
      · injection hq with hq
        exact ⟨hq.symm, rfl⟩
      · intro h content' hzone
        cases hzone
  next h content =>
    split
    · exact hpush
    · -- a block with a header ends
      refine hw.mark c (fun q hq => ?_) (fun hm => by cases hm) ?_
      · injection hq with hq
        exact ⟨hq.symm, rfl⟩
      · intro h' content' hzone
        cases hzone
        rfl

theorem Walked.chars (hw : Walked seen past zone) (cs : List Char)
    (quoted : Bool) (skip : Nat) :
    Walked (seen ++ cs) (past ++ (scanChars quoted skip seen.length zone cs).2)
      (scanChars quoted skip seen.length zone cs).1 := by
  induction cs generalizing seen past zone quoted skip with
  | nil =>
      rw [scanChars, List.append_nil, List.append_nil]
      exact hw
  | cons c cs ih =>
      have hlength : seen.length + 1 = (seen ++ [c]).length := by simp
      rw [scanChars_cons, List.append_cons seen, hlength]
      split
      next quoted skip _ => exact ih (hw.push c) quoted skip
      next =>
        unfold Zone.mark
        simp only
        rw [← List.append_assoc]
        exact ih (hw.brace c) false 0

theorem Walked.line (hw : Walked seen past zone) (line : List Char) :
    Walked (seen ++ (line ++ ['\n']))
      (past ++ (scanLine seen.length zone line).2)
      ((scanLine seen.length zone line).1.push '\n') := by
  unfold scanLine
  split
  · rw [List.append_nil]
    exact hw.comment line
  · rw [← List.append_assoc]
    exact (hw.chars line false 0).push '\n'

theorem Walked.lines (hw : Walked seen past zone) (ls : List (List Char)) :
    Walked (seen ++ ls.flatMap (· ++ ['\n']))
      (past ++ (scanLines seen.length zone ls).2)
      (scanLines seen.length zone ls).1 := by
  induction ls generalizing seen past zone with
  | nil =>
      rw [scanLines, List.flatMap_nil, List.append_nil, List.append_nil]
      exact hw
  | cons line ls ih =>
      have hlength : seen.length + line.length + 1
          = (seen ++ (line ++ ['\n'])).length := by
        simp [Nat.add_assoc]
      rw [scanLines, List.flatMap_cons, hlength, ← List.append_assoc seen]
      simp only
      rw [← List.append_assoc past]
      exact ih (hw.line line)

theorem walked_nil : Walked [] [] (.outside []) where
  bound m hm := by cases hm
  pending p hp := by
    injection hp with hp
    exact ⟨[], by rw [← hp]; rfl, Or.inl rfl⟩
  opened before i after hsplit :=
    absurd hsplit.symm (List.append_ne_nil_of_right_ne_nil _
      (List.cons_ne_nil _ _))

/-- The lines of a text, each with a line break, are the text with one. -/
theorem flatMap_lines (s : List Char) :
    (lines s).flatMap (· ++ ['\n']) = s ++ ['\n'] := by
  unfold lines
  induction s with
  | nil => rfl
  | cons c s ih =>
      by_cases hc : c = '\n'
      · rw [hc, pieces_cons_sep, List.flatMap_cons, ih]
        rfl
      · obtain ⟨part, rest, hs⟩ := List.exists_cons_of_ne_nil
          (pieces_ne_nil '\n' s)
        rw [hs, List.flatMap_cons] at ih
        rw [pieces_cons_of_ne hc hs, List.flatMap_cons, List.cons_append,
          List.cons_append, ih]
        rfl

/-- A walk over a whole text. -/
theorem walked_scanText (text : List Char) :
    Walked (text ++ ['\n']) (scanText text).2 (scanText text).1 := by
  have hwalk := walked_nil.lines (lines text)
  rw [List.nil_append, List.nil_append, flatMap_lines] at hwalk
  exact hwalk

-- =========================================================== the own line

variable {h : Header} {s t u x : List Char}

/-- A declaration on the last line of a text is the header that the text
ends with, or its stereotype ends that of an earlier declaration. -/
theorem find?_append_own (hx : x = [] ∨ BlankEnd x) (hs : trim s = t ++ u)
    (ht : h.Declares t) (hu : u = [] ∨ IsStereotype u) :
    ∃ h', Header.find? (x ++ s) = some h'
      ∧ (h' = h ∨ IsStereotype u ∧ LeavesStereotypeOpen h' x) := by
  obtain ⟨g, g', hg, hg', heq⟩ := exists_trim s
  have hend : x ++ g = [] ∨ BlankEnd (x ++ g) := by
    cases hlast : g.getLast? with
    | none =>
        rw [List.getLast?_eq_none_iff.mp hlast, List.append_nil]
        exact hx
    | some b =>
        refine Or.inr ⟨b, ?_, hg b (List.mem_of_getLast? hlast)⟩
        rw [List.getLast?_append, hlast]
        rfl
  rcases hu with rfl | hu
  · obtain ⟨h', hfind, hh'⟩ := find?_append_declares hend (ht.append_blanks hg')
      (Or.inl rfl)
    refine ⟨h', ?_, Or.inl (hh'.resolve_right ?_)⟩
    · rw [heq, hs, ← hfind]
      simp
    · rintro ⟨⟨content, gap, hnil, -⟩, -⟩
      cases hnil
  · obtain ⟨h', hfind, hh'⟩ := find?_append_declares hend ht
      (Or.inr (hu.append_blanks hg'))
    refine ⟨h', ?_, hh'.imp_right fun hopen => ⟨hu, hopen.2.of_append_blanks hg⟩⟩
    rw [heq, hs, ← hfind]
    simp

/-- The block that an opening brace starts outside any block has the
keyword and the name of the declaration on the line of that brace, unless
that declaration has a stereotype and an earlier one, since the last brace
that ended a block, leaves its own open: then they can be those of the
earlier one. The body is the text between the braces. -/
theorem body_belongs_to_own_line {text : List Char}
    {before after : List (Nat × Mark)} {i : Nat}
    (hopened : (scanText text).2 = before ++ (i, .opened) :: after)
    (hclosed : ∃ m ∈ after, m.2.closes = true)
    (hown : trim (lastPart (sinceClosing text before i)) = t ++ u)
    (ht : h.Declares t) (hu : u = [] ∨ IsStereotype u) :
    ∃ j b rest, after = (j, .closed b) :: rest ∧ b ∈ blocksIn text
      ∧ b.body = (text.take j).drop (i + 1)
      ∧ (⟨b.keyword, b.name⟩ = h ∨ IsStereotype u
        ∧ LeavesStereotypeOpen ⟨b.keyword, b.name⟩
          (earlierPart (sinceClosing text before i))) := by
  have hwalk := walked_scanText text
  have hbefore : ∀ m ∈ (scanText text).2, m.1 ≤ text.length := by
    intro m hm
    have hbound := hwalk.bound m hm
    rw [List.length_append, List.length_singleton] at hbound
    omega
  have hi : i ≤ text.length := hbefore (i, .opened) (by simp [hopened])
  obtain ⟨p, hp, hfollowed⟩ := hwalk.opened before i after hopened
  have hsince : sinceClosing (text ++ ['\n']) before i
      = sinceClosing text before i := by
    unfold sinceClosing
    rw [List.take_append_of_le_length hi]
  rw [hsince] at hp
  obtain ⟨x, y, hpending, hearlier, hx, hjoin⟩ := Pending.parts hp
  obtain ⟨h', hfind, hh'⟩ := find?_append_own hx hown ht hu
  rw [← hpending] at hfind
  rcases hfollowed h' hfind with ⟨rfl, -⟩ | ⟨j, rest, rfl⟩
  · obtain ⟨m, hm, -⟩ := hclosed
    cases hm
  · have hmem : (j, Mark.closed ⟨h'.keyword, h'.name,
        ((text ++ ['\n']).take j).drop (i + 1)⟩) ∈ (scanText text).2 := by
      simp [hopened]
    refine ⟨j, _, rest, rfl, List.mem_filterMap.mpr ⟨_, hmem, rfl⟩, ?_,
      hh'.imp_right fun hopen => ⟨hopen.1, ?_⟩⟩
    · rw [List.take_append_of_le_length (hbefore _ hmem)]
    · rw [hearlier]
      rcases hjoin with rfl | hjoin
      · exact hopen.2
      · exact hopen.2.append_left hjoin y

/-- A declaration behind the brace that ended the block before it, after
one without a body. -/
theorem body_belongs_to_own_line_after_brace :
    let text := "class A <<x>>\nenum E \x7b\n\x7d class B<T> \x7b\n\x7d".toList
    ∃ b ∈ blocksIn text, b.keyword = .classBlock ∧ b.name = ['B']
      ∧ b.body = ['\n'] := by
  intro text
  let before := [(21, Mark.opened), (23, .closed ⟨.enumBlock, ['E'], ['\n']⟩)]
  have hopened : (scanText text).2 = before
      ++ (36, .opened) :: [(38, .closed ⟨.classBlock, ['B'], ['\n']⟩)] := by
    decide +kernel
  have hown : trim (lastPart (sinceClosing text before 36))
      = "class B<T>".toList ++ [] := by
    decide +kernel
  have hgenerics : IsGenerics ['<', 'T', '>'] :=
    Or.inr ⟨['T'], [], rfl, by simpa using by decide, allBlank_nil⟩
  have hdeclares : Header.Declares ⟨.classBlock, ['B']⟩ "class B<T>".toList :=
    ⟨⟨[' '], [], _, by decide, allBlank_singleton (by decide), by decide,
      allBlank_nil, hgenerics⟩, ⟨by decide, List.all_eq_true.mp (by decide)⟩⟩
  obtain ⟨j, b, rest, hafter, hmem, hbody, hheader⟩ :=
    body_belongs_to_own_line hopened ⟨_, List.mem_singleton_self _, rfl⟩ hown
      hdeclares (Or.inl rfl)
  have hname : (⟨b.keyword, b.name⟩ : Header) = ⟨.classBlock, ['B']⟩ := by
    refine hheader.resolve_right ?_
    rintro ⟨⟨content, gap, hnil, -⟩, -⟩
    cases hnil
  injection hname with hkeyword hname
  injection hafter with hfirst
  injection hfirst with hj
  refine ⟨b, hmem, hkeyword, hname, ?_⟩
  rw [hbody, ← hj]
  decide +kernel

/-- An earlier declaration without a body takes the body of a later one
when both have stereotypes. -/
theorem body_goes_to_earlier_declaration :
    let text := "class A <<x>>\nclass B <<y>> \x7b\n\x7d\n".toList
    (scanText text).2 = [(28, .opened), (30, .closed ⟨.classBlock, ['A'], ['\n']⟩)]
      ∧ trim (lastPart (sinceClosing text [] 28))
        = "class B ".toList ++ "<<y>>".toList
      ∧ Header.Declares ⟨.classBlock, ['B']⟩ "class B ".toList
      ∧ IsStereotype "<<y>>".toList
      ∧ blocksIn text = [⟨.classBlock, ['A'], ['\n']⟩] := by
  intro text
  refine ⟨by decide +kernel, by decide +kernel, ?_, ?_, by decide +kernel⟩
  · exact ⟨⟨[' '], [' '], [], by decide, allBlank_singleton (by decide),
      by decide, allBlank_singleton (by decide), Or.inl rfl⟩,
      ⟨by decide, List.all_eq_true.mp (by decide)⟩⟩
  · exact ⟨['y'], [], rfl, by simpa using by decide, allBlank_nil⟩

end ApiScaffold
