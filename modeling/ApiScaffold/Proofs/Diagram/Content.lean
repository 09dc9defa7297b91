/-
Content lines: lines without the blanks around them and without blank
lines. What a text is read for is decided by them, and this file says how
they come together: line after line (`inkLines_append`), across a line
break (`contentLines_append_cons`), and while a text is read character by
character (`bareBody`), where the lines that are complete count as content
and of the last one only the start is trimmed, since more may follow.
-/
import ApiScaffold.Diagram.Block
import ApiScaffold.Proofs.Text.Lines

namespace ApiScaffold

-- ================================================================= lines

/-- The lines trimmed, without blank ones. -/
def inkLines (ls : List (List Char)) : List (List Char) :=
  (ls.map trim).filter (!·.isEmpty)

theorem contentLines_eq (body : List Char) :
    contentLines body = inkLines (lines body) := rfl

theorem inkLines_append (ls more : List (List Char)) :
    inkLines (ls ++ more) = inkLines ls ++ inkLines more := by
  unfold inkLines
  rw [List.map_append, List.filter_append]

theorem inkLines_cons (l : List Char) (ls : List (List Char)) :
    inkLines (l :: ls) = inkLines [l] ++ inkLines ls :=
  inkLines_append [l] ls

/-- A blank line has no content. -/
theorem inkLines_of_blank {l : List Char} (h : trim l = []) :
    inkLines [l] = [] := by
  unfold inkLines
  rw [List.map_singleton, h]
  rfl

/-- A line that is not blank is its content, trimmed. -/
theorem inkLines_of_ink {l : List Char} (h : trim l ≠ []) :
    inkLines [l] = [trim l] := by
  unfold inkLines
  rw [List.map_singleton, List.filter_cons_of_pos (by simpa using h)]
  rfl

theorem inkLines_nil_line : inkLines [[]] = [] := inkLines_of_blank rfl

/-- Only the trimmed line counts. -/
theorem inkLines_congr {l l' : List Char} (h : trim l = trim l') :
    inkLines [l] = inkLines [l'] := by
  unfold inkLines
  rw [List.map_singleton, List.map_singleton, h]

/-- Lines that are trimmed and not blank are their own content. -/
theorem inkLines_of_trimmed {ls : List (List Char)}
    (h : ∀ l ∈ ls, trim l = l ∧ l ≠ []) : inkLines ls = ls := by
  induction ls with
  | nil => rfl
  | cons l ls ih =>
      obtain ⟨htrim, hne⟩ := h l (List.mem_cons_self ..)
      rw [inkLines_cons, inkLines_of_ink (by rwa [htrim]), htrim,
        ih fun l hl => h l (List.mem_cons_of_mem _ hl)]
      rfl

-- ================================================================= texts

/-- Lines, each with a break after it, and the empty line at the end. -/
theorem lines_flatMap_break {ls : List (List Char)}
    (h : ∀ l ∈ ls, '\n' ∉ l) :
    lines (ls.flatMap (· ++ ['\n'])) = ls ++ [[]] := by
  unfold lines
  induction ls with
  | nil => rfl
  | cons l ls ih =>
      rw [List.flatMap_cons, List.append_assoc, List.singleton_append,
        pieces_append_cons (h l (List.mem_cons_self ..)),
        ih fun l hl => h l (List.mem_cons_of_mem _ hl)]
      rfl

/-- The content of a text without line breaks is that of one line. -/
theorem contentLines_of_line {l : List Char} (h : '\n' ∉ l) :
    contentLines l = inkLines [l] := by
  rw [contentLines_eq, lines, pieces_of_not_mem h]

/-- A line and its break in front of a text. -/
theorem contentLines_append_cons {l : List Char} (h : '\n' ∉ l)
    (s : List Char) :
    contentLines (l ++ '\n' :: s) = inkLines [l] ++ contentLines s := by
  rw [contentLines_eq, lines, pieces_append_cons h, inkLines_cons]
  rfl

/-- A line break in front of a text adds an empty line. -/
theorem contentLines_break (s : List Char) :
    contentLines ('\n' :: s) = contentLines s := by
  rw [← List.nil_append ('\n' :: s), contentLines_append_cons (by simp),
    inkLines_nil_line]
  rfl

/-- Content comes together across a line break. -/
theorem contentLines_append_break (s t : List Char) :
    contentLines (s ++ '\n' :: t) = contentLines s ++ contentLines t := by
  rw [contentLines_eq, lines, pieces_append_sep_cons, inkLines_append]
  rfl

-- ======================================================== while reading

/-- A body read so far, last character first, without its layout: the
content lines among its complete lines, and its last line without the
blanks at its start. -/
def bareBody : List Char → List (List Char) × List Char
  | [] => ([], [])
  | c :: s =>
    if c = '\n' then ((bareBody s).1 ++ inkLines [(bareBody s).2], [])
    else ((bareBody s).1, trimStart ((bareBody s).2 ++ [c]))

/-- A line break completes the current line. -/
theorem bareBody_break (s : List Char) :
    bareBody ('\n' :: s) = ((bareBody s).1 ++ inkLines [(bareBody s).2], []) := by
  rw [bareBody, if_pos rfl]

/-- Any other character joins the current line, unless it is a blank at its start. -/
theorem bareBody_of_ne {c : Char} (h : c ≠ '\n') (s : List Char) :
    bareBody (c :: s) = ((bareBody s).1, trimStart ((bareBody s).2 ++ [c])) := by
  rw [bareBody, if_neg h]

/-- Bodies with the same content still have it with one more character. -/
theorem bareBody_cons_congr {s t : List Char} (h : bareBody s = bareBody t)
    (c : Char) : bareBody (c :: s) = bareBody (c :: t) := by
  rw [bareBody, bareBody, h]

/-- A blank at the start of a line leaves everything as it is. -/
theorem bareBody_blank_cons {b : Char} (hb : isBlank b = true)
    {s : List Char} (hs : (bareBody s).2 = []) :
    bareBody (b :: s) = bareBody s := by
  by_cases hbreak : b = '\n'
  · rw [hbreak, bareBody_break, hs, inkLines_nil_line, List.append_nil, ← hs]
  · rw [bareBody_of_ne hbreak, hs, List.nil_append, trimStart_cons_of_blank hb]
    exact Prod.ext rfl hs.symm

/-- A blank at the end of a line is gone with the line. -/
theorem bareBody_break_blank_cons {b : Char} (hb : isBlank b = true)
    (s : List Char) : bareBody ('\n' :: b :: s) = bareBody ('\n' :: s) := by
  rw [bareBody_break, bareBody_break]
  by_cases hbreak : b = '\n'
  · rw [hbreak, bareBody_break, inkLines_nil_line, List.append_nil]
  · rw [bareBody_of_ne hbreak]
    have htrim : trim (trimStart ((bareBody s).2 ++ [b]))
        = trim (bareBody s).2 := by
      rw [trim_trimStart]
      exact trim_blanks_append allBlank_nil (allBlank_singleton hb)
    rw [inkLines_congr htrim]

/-- The lines of a body read so far: complete ones that give the content
lines, and the last one. -/
theorem exists_lines_reverse (s : List Char) :
    ∃ front, lines s.reverse = front ++ [Zone.lastLine s]
      ∧ inkLines front = (bareBody s).1
      ∧ trimStart (Zone.lastLine s) = (bareBody s).2 := by
  induction s with
  | nil => exact ⟨[], rfl, rfl, rfl⟩
  | cons c s ih =>
      obtain ⟨front, hlines, hfront, hlast⟩ := ih
      rw [List.reverse_cons]
      by_cases hc : c = '\n'
      · refine ⟨front ++ [Zone.lastLine s], ?_, ?_, ?_⟩
        · rw [hc, lines, pieces_append_sep, ← lines, hlines]
          rfl
        · rw [hc, bareBody_break, inkLines_append, hfront]
          congr 1
          refine inkLines_congr ?_
          rw [← hlast, trim_trimStart]
        · rw [hc, bareBody_break]
          rfl
      · have hsnoc : Zone.lastLine (c :: s) = Zone.lastLine s ++ [c] := by
          unfold Zone.lastLine
          rw [List.takeWhile_cons_of_pos (by simpa using hc),
            List.reverse_cons]
        refine ⟨front, ?_, ?_, ?_⟩
        · rw [hsnoc]
          exact pieces_append_of_ne hc hlines
        · rw [bareBody_of_ne hc]
          exact hfront
        · rw [bareBody_of_ne hc, hsnoc, ← hlast, trimStart_append,
            trimStart_append, trimStart_trimStart]

/-- The content lines of a body that is complete. -/
theorem contentLines_reverse (s : List Char) :
    contentLines s.reverse = (bareBody s).1 ++ inkLines [(bareBody s).2] := by
  obtain ⟨front, hlines, hfront, hlast⟩ := exists_lines_reverse s
  rw [contentLines_eq, hlines, inkLines_append, hfront]
  congr 1
  refine inkLines_congr ?_
  rw [← hlast, trim_trimStart]

end ApiScaffold
