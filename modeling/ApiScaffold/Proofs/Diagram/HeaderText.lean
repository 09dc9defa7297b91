/-
The text in which the header of a block is looked for, exactly. It reaches
from an opening brace back to the last brace that ended a block or the end
of the last comment line, whichever is later (`headerText`). `Traced` says
so of a walk at any point: outside any block the text kept is the header
text so far. Each step of a walk keeps it, so every block is opened with the
header of its header text.

Braces cut the search for a header: none holds a brace, so only the text
since the last one counts (`find?_sinceBrace`), and on a single line only
that line's part of it (`find?_lastLine`). Where a text ends with no header,
neither does its last line (`find?_lastLine_eq_none`).
-/
import ApiScaffold.Proofs.Diagram.Course

namespace ApiScaffold

-- ================================================================ braces

namespace Header

variable {s x : List Char} {h : Header}

theorem isBrace_of_isBracket {c : Char} (hc : isBracket c = false) :
    isBrace c = false := by
  unfold isBracket at hc
  simp only [decide_eq_false_iff_not, not_or, Bool.not_eq_true] at hc
  exact hc.2.2

/-- Generics hold no brace. -/
theorem not_isBrace_of_isGenerics (hs : IsGenerics s) :
    ∀ c ∈ s, isBrace c = false := by
  intro c hc
  rcases hs with rfl | ⟨content, gap, rfl, hcontent, hgap⟩
  · cases hc
  · simp only [List.mem_cons, List.mem_append] at hc
    rcases hc with rfl | hc | rfl | hc
    · decide
    · exact isBrace_of_isBracket (hcontent c hc)
    · decide
    · exact isBrace_of_isBlank (hgap c hc)

/-- A stereotype holds no brace. -/
theorem not_isBrace_of_isStereotype (hs : IsStereotype s) :
    ∀ c ∈ s, isBrace c = false := by
  intro c hc
  obtain ⟨content, gap, rfl, hcontent, hgap⟩ := hs
  simp only [List.mem_cons, List.mem_append] at hc
  rcases hc with rfl | rfl | hc | rfl | rfl | hc
  · decide
  · decide
  · exact hcontent c hc
  · decide
  · decide
  · exact isBrace_of_isBlank (hgap c hc)

/-- A header holds no brace. -/
theorem not_isBrace_of_whole? (hs : whole? s = some h) :
    ∀ c ∈ s, isBrace c = false := by
  intro c hc
  obtain ⟨t, u, rfl, ⟨⟨gap, space, generics, rfl, hgap, -, hspace, hgenerics⟩,
    hname⟩, hu⟩ := exists_declares_of_whole? hs
  have hword : ∀ d, isWord d = true → isBrace d = false :=
    fun d hd => isBrace_of_isBracket (isBracket_of_isWord hd)
  simp only [List.mem_append] at hc
  rcases hc with (hc | hc | hc | hc | hc) | hc
  · exact hword c (isWord_keyword _ c hc)
  · exact isBrace_of_isBlank (hgap c hc)
  · exact hword c (hname.word c hc)
  · exact isBrace_of_isBlank (hspace c hc)
  · exact not_isBrace_of_isGenerics hgenerics c hc
  · rcases hu with rfl | hu
    · cases hc
    · exact not_isBrace_of_isStereotype hu c hc

/-- The search starts over behind a brace. -/
theorem findFrom?_append_brace {b : Char} (hb : isBrace b = true)
    (x s : List Char) (joined : Bool) :
    findFrom? joined (x ++ b :: s) = find? s := by
  have hnone : ∀ r : List Char, b ∈ r → whole? r = none := by
    intro r hmem
    refine Option.eq_none_iff_forall_not_mem.mpr fun h hh => ?_
    rw [not_isBrace_of_whole? hh b hmem] at hb
    cases hb
  have hword : isWord b = false := by
    unfold isBrace at hb
    rcases of_decide_eq_true hb with rfl | rfl <;> decide
  induction x generalizing joined with
  | nil =>
      rw [List.nil_append, findFrom?, hnone _ (List.mem_cons_self ..), ite_self,
        hword]
      rfl
  | cons c x ih =>
      rw [List.cons_append, findFrom?, hnone _ (by simp), ite_self]
      exact ih (isWord c)

/-- Where a text ends with no header, neither does its end from a blank
on. -/
theorem find?_eq_none_of_append {joined : Bool}
    (hx : x = [] ∧ joined = false ∨ BlankEnd x)
    (h : findFrom? joined (x ++ s) = none) : find? s = none := by
  rcases findFrom?_append s joined hx with hfind | ⟨h', front, y, hfind, -⟩
  · exact hfind.symm.trans h
  · rw [hfind] at h
    cases h

end Header

/-- The part of a text since its last brace; both are kept last character
first. -/
def sinceBrace (s : List Char) : List Char := s.takeWhile (!Header.isBrace ·)

/-- The part of a text since its last brace or line break; both are kept
last character first. -/
def sinceStop (s : List Char) : List Char :=
  s.takeWhile fun c => !Header.isBrace c && decide (c ≠ '\n')

/-- Only the text since the last brace is searched for a header. -/
theorem find?_sinceBrace (s : List Char) :
    Header.find? (sinceBrace s).reverse = Header.find? s.reverse := by
  have hsplit : sinceBrace s ++ s.dropWhile (!Header.isBrace ·) = s :=
    List.takeWhile_append_dropWhile
  cases h : s.dropWhile (!Header.isBrace ·) with
  | nil =>
      rw [h, List.append_nil] at hsplit
      rw [hsplit]
  | cons b r =>
      have hhead := List.head?_dropWhile_not (!Header.isBrace ·) s
      rw [h] at hhead
      have hb : Header.isBrace b = true := by simpa using hhead
      rw [h] at hsplit
      conv => rhs; rw [← hsplit]
      rw [List.reverse_append, List.reverse_cons, List.append_assoc,
        List.singleton_append]
      exact (Header.findFrom?_append_brace hb _ _ _).symm

/-- On the last line only the part since its last brace is searched. -/
theorem find?_lastLine (s : List Char) :
    Header.find? (Zone.lastLine s) = Header.find? (sinceStop s).reverse := by
  have hstop : sinceBrace (s.takeWhile (· ≠ '\n')) = sinceStop s := by
    unfold sinceBrace sinceStop
    rw [List.takeWhile_takeWhile]
    congr 1
    funext c
    simp
  rw [← hstop, find?_sinceBrace]
  rfl

/-- The last line of a text, from its characters last first. -/
theorem lastPart_reverse (s : List Char) :
    lastPart s.reverse = Zone.lastLine s := by
  unfold lastPart
  rw [List.reverse_reverse]

/-- What stands behind a line break decides the last line. -/
theorem lastLine_append_break (s t : List Char) :
    Zone.lastLine (s ++ '\n' :: t) = Zone.lastLine s := by
  have hparts := (parts_append_break t.reverse s.reverse).1
  have hrev : t.reverse ++ '\n' :: s.reverse = (s ++ '\n' :: t).reverse := by simp
  rwa [hrev, lastPart_reverse, lastPart_reverse] at hparts

/-- A last line without a header is that of a text without one. -/
theorem find?_lastLine_eq_none {s : List Char}
    (h : Header.find? s.reverse = none) :
    Header.find? (Zone.lastLine s) = none := by
  rw [← lastPart_reverse]
  rw [← earlierPart_append_lastPart s.reverse] at h
  exact Header.find?_eq_none_of_append
    ((earlierPart_eq_nil_or _).imp_left fun hnil => ⟨hnil, rfl⟩) h

/-- Texts that agree since the last brace still do with one more character. -/
theorem sinceBrace_cons_congr {s t : List Char} (h : sinceBrace s = sinceBrace t)
    (c : Char) : sinceBrace (c :: s) = sinceBrace (c :: t) := by
  unfold sinceBrace at h ⊢
  rw [List.takeWhile_cons, List.takeWhile_cons, h]

/-- So do texts that agree since the last brace or line break. -/
theorem sinceStop_cons_congr {s t : List Char} (h : sinceStop s = sinceStop t)
    (c : Char) : sinceStop (c :: s) = sinceStop (c :: t) := by
  unfold sinceStop at h ⊢
  rw [List.takeWhile_cons, List.takeWhile_cons, h]

/-- Behind a brace the text starts over. -/
theorem sinceBrace_brace {c : Char} (hc : Header.isBrace c = true)
    (s : List Char) : sinceBrace (c :: s) = [] :=
  List.takeWhile_cons_of_neg (by simp [hc])

/-- Behind a brace the line starts over as well. -/
theorem sinceStop_brace {c : Char} (hc : Header.isBrace c = true)
    (s : List Char) : sinceStop (c :: s) = [] :=
  List.takeWhile_cons_of_neg (by simp [hc])

/-- Behind a line break the line starts over. -/
theorem sinceStop_break (s : List Char) : sinceStop ('\n' :: s) = [] :=
  List.takeWhile_cons_of_neg (by simp)

-- ========================================================= comment lines

/-- The offset of the end of the last comment line among lines that are
each followed by a line break, the first of them at `offset`; `start` if
there is none. -/
def commentEnd (offset start : Nat) : List (List Char) → Nat
  | [] => start
  | line :: ls => commentEnd (offset + line.length + 1)
      (if isComment line then offset + line.length else start) ls

/-- The offset of the line break after the last comment line that a text
has complete. -/
def afterComment (text : List Char) : Nat :=
  commentEnd 0 0 (lines text).dropLast

/-- A further line moves the end of the comments only if it is a comment. -/
theorem commentEnd_concat (offset start : Nat) (ls : List (List Char))
    (line : List Char) :
    commentEnd offset start (ls ++ [line])
      = if isComment line
        then offset + (ls.flatMap (· ++ ['\n'])).length + line.length
        else commentEnd offset start ls := by
  induction ls generalizing offset start with
  | nil => rfl
  | cons l ls ih =>
      rw [List.cons_append, commentEnd, ih, commentEnd, List.flatMap_cons,
        List.length_append, List.length_append, List.length_singleton]
      congr 1
      omega

/-- The lines of a text: the complete ones, and the last one. -/
theorem exists_lines_eq (s : List Char) :
    ∃ front, lines s = front ++ [lastPart s]
      ∧ front.flatMap (· ++ ['\n']) ++ lastPart s = s := by
  obtain ⟨front, hlines, -⟩ := exists_lines_reverse s.reverse
  rw [List.reverse_reverse] at hlines
  have hflat := flatMap_lines s
  rw [hlines, List.flatMap_append, List.flatMap_singleton, ← List.append_assoc]
    at hflat
  exact ⟨front, hlines, List.append_cancel_right hflat⟩

/-- Within a line no comment ends. -/
theorem afterComment_append_of_ne {c : Char} (h : c ≠ '\n') (s : List Char) :
    afterComment (s ++ [c]) = afterComment s := by
  obtain ⟨front, hlines, -⟩ := exists_lines_eq s
  have hmore : lines (s ++ [c]) = front ++ [lastPart s ++ [c]] :=
    pieces_append_of_ne h hlines
  unfold afterComment
  rw [hmore, hlines, List.dropLast_concat, List.dropLast_concat]

/-- A line break ends the comment of its line, if that is one. -/
theorem afterComment_append_break (s : List Char) :
    afterComment (s ++ ['\n'])
      = if isComment (lastPart s) then s.length else afterComment s := by
  obtain ⟨front, hlines, hflat⟩ := exists_lines_eq s
  have hmore : lines (s ++ ['\n']) = lines s ++ [[]] := pieces_append_sep '\n' s
  have hlength : (front.flatMap (· ++ ['\n'])).length + (lastPart s).length
      = s.length := by
    rw [← List.length_append, hflat]
  unfold afterComment
  rw [hmore, List.dropLast_concat, hlines, commentEnd_concat, Nat.zero_add,
    hlength, List.dropLast_concat]

/-- Comments end within the text. -/
theorem afterComment_le (s : List Char) : afterComment s ≤ s.length := by
  induction s using List.reverseRecOn with
  | nil => exact Nat.le_refl 0
  | append_singleton s c ih =>
      rw [List.length_append, List.length_singleton]
      by_cases hc : c = '\n'
      · rw [hc, afterComment_append_break]
        split <;> omega
      · rw [afterComment_append_of_ne hc]
        omega

-- ========================================================== header texts

/-- Where the text starts in which a header is looked for, once a text has
been read and marks were made. -/
def headerStart (seen : List Char) (past : List (Nat × Mark)) : Nat :=
  max (afterClosing past) (afterComment seen)

/-- The text in which the header of a brace at an offset is looked for. -/
def headerText (text : List Char) (before : List (Nat × Mark)) (i : Nat) :
    List Char :=
  (text.take i).drop (headerStart (text.take i) before)

/-- The header text at the end of what was seen reaches from its start to there. -/
theorem headerText_length {text seen s : List Char} (htext : text = seen ++ s)
    (past : List (Nat × Mark)) :
    headerText text past seen.length = seen.drop (headerStart seen past) := by
  unfold headerText
  rw [htext, List.take_left]

/-- The line break that is read after the last line is in no header text. -/
theorem headerText_append_break {text : List Char} {i : Nat}
    (hi : i ≤ text.length) (before : List (Nat × Mark)) :
    headerText (text ++ ['\n']) before i = headerText text before i := by
  unfold headerText
  rw [List.take_append_of_le_length hi]

/-- What holds when a walk has read a text: marks stand where they were
made, and outside any block the text kept is the header text so far. -/
structure Traced (seen : List Char) (w : Course) : Prop where
  bound : ∀ m ∈ w.past, m.1 < seen.length
  pending : ∀ p, w.zone = .outside p →
    p.reverse = seen.drop (headerStart seen w.past)

namespace Traced

variable {seen : List Char} {w : Course}

/-- The header text starts within the text seen. -/
theorem headerStart_le (hw : Traced seen w) :
    headerStart seen w.past ≤ seen.length :=
  Nat.max_le.mpr ⟨afterClosing_le hw.bound, afterComment_le seen⟩

/-- The marks of a walk lie within any longer text. -/
theorem bound_append (hw : Traced seen w) (s : List Char) :
    ∀ m ∈ w.past, m.1 < (seen ++ s).length := by
  intro m hm
  rw [List.length_append]
  exact Nat.lt_add_right _ (hw.bound m hm)

/-- A character that joins the text kept. -/
theorem push (hw : Traced seen w) {c : Char}
    (hc : afterComment (seen ++ [c]) = afterComment seen) (quoted : Bool)
    (skip : Nat) :
    Traced (seen ++ [c]) ⟨quoted, skip, w.zone.push c, w.past⟩ where
  bound := hw.bound_append [c]
  pending p hp := by
    cases hzone : w.zone with
    | inside header content => rw [hzone] at hp; cases hp
    | outside q =>
        rw [hzone] at hp
        injection hp with hp
        have hstart : headerStart (seen ++ [c]) w.past
            = headerStart seen w.past := by
          unfold headerStart
          rw [hc]
        simp only
        rw [← hp, hstart, List.drop_append_of_le_length hw.headerStart_le,
          ← hw.pending q hzone, List.reverse_cons]

/-- A brace. -/
theorem brace (hw : Traced seen w) (c : Char) (hc : c ≠ '\n') :
    Traced (seen ++ [c]) ⟨false, 0, (w.zone.brace c).1,
      w.past ++ ((w.zone.brace c).2.map (seen.length, ·)).toList⟩ := by
  have hkept : Traced (seen ++ [c]) ⟨false, 0, w.zone.push c,
      w.past ++ ((none : Option Mark).map (seen.length, ·)).toList⟩ := by
    rw [Option.map_none, Option.toList_none, List.append_nil]
    exact hw.push (afterComment_append_of_ne hc seen) false 0
  have hmarked : ∀ (m : Mark) (zone : Zone),
      (∀ p, zone = .outside p → p = [] ∧ m.closes = true) →
      Traced (seen ++ [c]) ⟨false, 0, zone,
        w.past ++ ((some m).map (seen.length, ·)).toList⟩ := by
    intro m zone hzone
    refine ⟨fun m' hm' => ?_, fun p hp => ?_⟩
    · rcases List.mem_append.mp hm' with hm' | hm'
      · exact hw.bound_append [c] m' hm'
      · rw [List.mem_singleton.mp hm', List.length_append]
        exact Nat.lt_succ_self _
    · obtain ⟨rfl, hm⟩ := hzone p hp
      have hstart : (seen ++ [c]).length
          ≤ headerStart (seen ++ [c]) (w.past ++ [(seen.length, m)]) := by
        unfold headerStart
        rw [afterClosing_concat, if_pos hm, List.length_append]
        exact Nat.le_max_left _ _
      exact (List.drop_eq_nil_of_le hstart).symm
  unfold Zone.brace
  split
  · split
    · exact hmarked .opened _ fun p hp => by cases hp
    · exact hkept
  · split
    · split
      · exact hmarked .reopened _ fun p hp => by cases hp
      · exact hkept
    · exact hmarked .discarded _ fun p hp =>
        ⟨by injection hp with hp; exact hp.symm, rfl⟩
  · split
    · exact hkept
    · exact hmarked _ _ fun p hp => ⟨by injection hp with hp; exact hp.symm, rfl⟩

/-- One character is walked over without losing track of the header text. -/
theorem step (hw : Traced seen w) {c : Char} (hc : c ≠ '\n') (cs : List Char) :
    Traced (seen ++ [c]) (w.step seen.length c cs) := by
  cases h : scanStep w.quoted w.skip w.zone.isOutside c cs with
  | some read =>
      obtain ⟨quoted, skip⟩ := read
      rw [Course.step_of_read h]
      exact hw.push (afterComment_append_of_ne hc seen) quoted skip
  | none =>
      rw [Course.step_of_brace h]
      exact hw.brace c hc

/-- The break after a line that is no comment. -/
theorem newLine (hw : Traced seen w) (h : isComment (lastPart seen) = false) :
    Traced (seen ++ ['\n']) w.newLine := by
  refine hw.push ?_ false 0
  rw [afterComment_append_break, h]
  rfl

/-- A comment line with its break. -/
theorem passComment (hw : Traced seen w) {line : List Char}
    (hseen : lastPart seen = []) (hline : '\n' ∉ line)
    (hcomment : isComment line = true) :
    Traced (seen ++ (line ++ ['\n'])) (w.passComment line).newLine where
  bound := hw.bound_append (line ++ ['\n'])
  pending p hp := by
    cases hzone : w.zone with
    | inside header content =>
        unfold Course.newLine Course.passComment at hp
        rw [hzone] at hp
        cases hp
    | outside q =>
        unfold Course.newLine Course.passComment at hp
        rw [hzone] at hp
        injection hp with hp
        have hlast : lastPart (seen ++ line) = line := by
          rw [lastPart_append_of_not_mem hline, hseen, List.nil_append]
        have hstart : headerStart ((seen ++ line) ++ ['\n'])
            (w.passComment line).newLine.past = (seen ++ line).length := by
          unfold headerStart
          rw [afterComment_append_break, hlast, if_pos hcomment]
          refine Nat.max_eq_right ((afterClosing_le hw.bound).trans ?_)
          rw [List.length_append]
          exact Nat.le_add_right _ _
        rw [← List.append_assoc, hstart, List.drop_left, ← hp]
        rfl

/-- Whatever a walk is compared with, it stays traced. -/
theorem sideBySide (text : List Char) (marks : List (Nat × Mark)) (shift : Nat) :
    SideBySide text marks shift (fun seen w _ => Traced seen w)
      (fun seen w _ _ => Traced seen w) where
  start _ _ _ _ _ hw := hw
  step _ _ _ _ cs _ _ hc _ hw := hw.step hc cs
  finish _ _ _ h hw := hw.newLine h
  comment _ _ _ _ hseen hline hcomment hw := hw.passComment hseen hline hcomment

end Traced

/-- A walk that has seen nothing is on track. -/
theorem traced_start : Traced [] ⟨false, 0, .outside [], []⟩ where
  bound m hm := by cases hm
  pending p hp := by
    injection hp with hp
    rw [← hp]
    rfl

/-- A walk over lines, begun outside any block. -/
theorem traced_runLines {ls : List (List Char)} (h : ∀ l ∈ ls, '\n' ∉ l) :
    Traced (ls.flatMap (· ++ ['\n']))
      ((Course.mk false 0 (.outside []) []).runLines 0 ls) := by
  let start : Course := ⟨false, 0, .outside [], []⟩
  have hside := Traced.sideBySide (ls.flatMap (· ++ ['\n']))
    (start.runLines 0 ls).past 0
  exact @SideBySide.runLines _ _ _ _ _ _ start start hside ls traced_start rfl rfl h
    List.prefix_rfl

end ApiScaffold
