/-
Texts in single quotes. Every run is read back as it stands, save for line breaks:
a next-line character becomes a line feed, or a blank where it stands alone, or
nothing where it leads other breaks, since the printer doubles line feeds only
(`readRun`).
-/
import ApiScaffold.Proofs.Yaml.Runs

namespace ApiScaffold.Yaml

-- ========================================================= single quotes

/-- A character inside single quotes. -/
def doubled (c : Char) : List Char := if c = '\'' then ['\'', '\''] else [c]

/-- What a run of a text in single quotes is read as. A break of a kind of its
own at the front of a run is the first one there, and any other has one in front
of it that is dropped. -/
def readRun : List Char → List Char
  | [] => []
  | c :: cs =>
    if isBreak c then
      if c = '\n' then (c :: cs).map breakChar
      else (Gap.breaks (some (breakChar c)) (cs.map breakChar)).text
    else c :: cs

/-- Further line breaks join those of the gap. -/
theorem foldl_lineBreak (first : Option Char) (more run : List Char) :
    run.foldl (fun g c => g.lineBreak c) (Gap.breaks first more)
      = .breaks first (more ++ run.map breakChar) := by
  induction run generalizing more with
  | nil => rw [List.map_nil, List.append_nil]; rfl
  | cons c run ih =>
      rw [List.foldl_cons, Gap.lineBreak, ih, List.map_cons, List.append_assoc]
      rfl

section readSingle

variable {s : List Char}

/-- A line break is taken into the gap, unless a document mark follows. -/
theorem readSingle_break (g : Gap) {c : Char} (hc : isBreak c = true)
    (hs : startsMark s = false) :
    readSingle g (c :: s) = readSingle (g.lineBreak c) s := by
  have hquote : c ≠ '\'' := by rintro rfl; cases hc
  conv_lhs => unfold readSingle
  rw [if_neg hquote, if_pos hc, hs]
  rfl

/-- A blank is taken into the gap. -/
theorem readSingle_blank (g : Gap) {c : Char} (hc : isSpace c = true) :
    readSingle g (c :: s) = readSingle (g.blank c) s := by
  rw [of_decide_eq_true hc]
  conv_lhs => unfold readSingle
  rw [if_neg (by decide), if_neg (by decide), if_pos (by decide)]

/-- A quote that is not doubled ends the text, behind what the gap stands for. -/
theorem readSingle_close (g : Gap) (hs : s.head? ≠ some '\'') :
    readSingle g ('\'' :: s) = some (g.text, s) := by
  unfold readSingle
  rw [if_pos rfl]
  split
  next => exact absurd rfl hs
  next => rfl

/-- A character of a word comes behind what the gap in front stands for. -/
theorem readSingle_ink (g : Gap) {c : Char} (hc : isInk c = true)
    (htab : c ≠ '\t') :
    readSingle g (doubled c ++ s)
      = (readSingle .empty s).map (prepend (g.text ++ [c])) := by
  unfold doubled
  by_cases hquote : c = '\''
  · subst hquote
    rfl
  · have hbreak : isBreak c = false := by
      unfold isInk at hc
      revert hc
      cases isBreak c <;> simp
    have hblank : isInnerBlank c = false := by
      unfold isInk isSpace at hc
      unfold isInnerBlank
      simp_all
    rw [if_neg hquote, List.singleton_append]
    conv_lhs => unfold readSingle
    rw [if_neg hquote, hbreak, hblank]
    rfl

/-- A run of blanks is taken into the gap. -/
theorem readSingle_blanks {g : List Char} (hg : ∀ c ∈ g, isSpace c = true)
    (before : List Char) :
    readSingle (.blanks before) (g ++ s) = readSingle (.blanks (before ++ g)) s := by
  induction g generalizing before with
  | nil => rw [List.append_nil]; rfl
  | cons c g ih =>
      rw [List.cons_append, readSingle_blank _ (hg c (by simp)), Gap.blank,
        ih (fun d hd => hg d (by simp [hd])), List.append_assoc]
      rfl

/-- Blanks behind a line break are indentation and are dropped. -/
theorem readSingle_indent (first : Option Char) (more : List Char) (n : Nat) :
    readSingle (.breaks first more) (List.replicate n ' ' ++ s)
      = readSingle (.breaks first more) s := by
  induction n with
  | zero => rfl
  | succ n ih =>
      rw [List.replicate_succ, List.cons_append, readSingle_blank _ rfl]
      exact ih

/-- Line breaks in front of an indentation. -/
theorem readSingle_breaks (g : Gap) {run : List Char}
    (hrun : ∀ c ∈ run, isBreak c = true) (hs : startsMark s = false) :
    readSingle g (run ++ s) = readSingle (run.foldl (fun g c => g.lineBreak c) g) s := by
  induction run generalizing g with
  | nil => rfl
  | cons c run ih =>
      have hnext : startsMark (run ++ s) = false := by
        cases run with
        | nil => exact hs
        | cons d run => exact startsMark_cons (ne_mark_of_isBreak (hrun d (by simp))) _
      rw [List.cons_append, readSingle_break g (hrun c (by simp)) hnext,
        ih _ fun d hd => hrun d (by simp [hd])]
      rfl

/-- A word comes behind what the gap in front stands for. -/
theorem readSingle_word (g : Gap) {w : List Char} (hne : w ≠ [])
    (hw : ∀ c ∈ w, isInk c = true ∧ c ≠ '\t') :
    readSingle g (w.flatMap doubled ++ s)
      = (readSingle .empty s).map (prepend (g.text ++ w)) := by
  induction w generalizing g with
  | nil => exact absurd rfl hne
  | cons c w ih =>
      obtain ⟨hink, htab⟩ := hw c (by simp)
      rw [List.flatMap_cons, List.append_assoc, readSingle_ink g hink htab]
      by_cases hnil : w = []
      · subst hnil
        rfl
      · rw [ih .empty hnil fun d hd => hw d (by simp [hd])]
        rw [Option.map_map]
        congr 1
        funext r
        unfold prepend
        simp [Gap.empty, Gap.text]

end readSingle

/-- A run of line breaks is written as it stands. -/
theorem wrote_foldl_breakLine (p : Pen) (run : List Char) :
    p.Wrote (run.foldl Pen.breakLine p) run := by
  induction run generalizing p with
  | nil => exact Pen.Wrote.refl p
  | cons c run ih => exact (p.wrote_breakLine c).trans (ih (p.breakLine c))

/-- The breaks of a run as they stand in single quotes. -/
def quotedBreaks : List Char → List Char
  | [] => []
  | c :: cs => if c = '\n' then '\n' :: c :: cs else c :: cs

/-- Line breaks inside quotes are written with the indentation of the next line. -/
theorem wrote_putBreaks {depth : Nat} (p : Pen) {run : List Char} (hne : run ≠ []) :
    p.Wrote (putBreaks depth p run)
      (quotedBreaks run ++ List.replicate depth ' ') := by
  obtain ⟨c, cs, rfl⟩ := List.exists_cons_of_ne_nil hne
  have hline : ∀ (q : Pen) (ds : List Char), q.column = 0 → q.fresh = true →
      q.blank = true → (ds.foldl Pen.breakLine q).Wrote
        ((ds.foldl Pen.breakLine q).indentTo depth) (List.replicate depth ' ') := by
    intro q ds hcolumn hfresh hblank
    have hkeep : (ds.foldl Pen.breakLine q).column = 0
        ∧ (ds.foldl Pen.breakLine q).fresh = true
        ∧ (ds.foldl Pen.breakLine q).blank = true := by
      induction ds generalizing q with
      | nil => exact ⟨hcolumn, hfresh, hblank⟩
      | cons d ds ih => exact ih (q.breakLine d) rfl rfl rfl
    obtain ⟨hcolumn, hfresh, hblank⟩ := hkeep
    have hwrote := (Pen.wrote_indentTo_of_fresh depth hfresh
      (by omega) (fun _ => hblank)).1
    rwa [hcolumn, Nat.sub_zero] at hwrote
  rw [putBreaks, quotedBreaks]
  by_cases hc : c = '\n'
  · subst hc
    refine ((p.wrote_breakLine '\n').trans
      (wrote_foldl_breakLine _ ('\n' :: cs))).trans ?_
    exact hline _ cs rfl rfl rfl
  · rw [if_neg hc]
    have hhead : ((c :: cs).head? == some '\n') = false := by
      simpa using hc
    rw [hhead]
    refine Pen.Wrote.trans (wrote_foldl_breakLine p (c :: cs)) ?_
    exact hline (p.breakLine c) cs rfl rfl rfl

/-- Written line breaks are read as a gap that stands for the run. -/
theorem readSingle_quotedBreaks {run s : List Char} (hne : run ≠ [])
    (hrun : ∀ c ∈ run, isBreak c = true) (depth : Nat) (hdepth : 0 < depth) :
    ∃ g, g.text = readRun run ∧
      readSingle .empty (quotedBreaks run ++ (List.replicate depth ' ' ++ s))
        = readSingle g s := by
  obtain ⟨c, cs, rfl⟩ := List.exists_cons_of_ne_nil hne
  have hmark : startsMark (List.replicate depth ' ' ++ s) = false :=
    startsMark_indent hdepth _
  have hc := hrun c (by simp)
  rw [quotedBreaks, readRun, if_pos hc]
  by_cases hfeed : c = '\n'
  · subst hfeed
    refine ⟨.breaks (some '\n') (('\n' :: cs).map breakChar), rfl, ?_⟩
    have hbreaks : ∀ d ∈ '\n' :: '\n' :: cs, isBreak d = true :=
      List.forall_mem_cons.mpr ⟨rfl, hrun⟩
    rw [if_pos rfl, readSingle_breaks _ hbreaks hmark, List.foldl_cons, Gap.empty,
      Gap.lineBreak, foldl_lineBreak, readSingle_indent]
    rfl
  · refine ⟨.breaks (some (breakChar c)) (cs.map breakChar), ?_, ?_⟩
    · rw [if_neg hfeed]
    · rw [if_neg hfeed, readSingle_breaks _ hrun hmark, List.foldl_cons, Gap.empty,
        Gap.lineBreak, foldl_lineBreak, readSingle_indent]
      rfl

theorem any_isBreak {w : List Char} (hw : ∀ c ∈ w, isBreak c = false) :
    w.any isBreak = false :=
  List.any_eq_false.mpr fun c hc => by rw [hw c hc]; decide

/-- A word is put with its quotes doubled. -/
theorem putSingleRuns_word (depth : Nat) (fold first : Bool) (p : Pen) {w : List Char}
    (hink : ∀ c ∈ w, isInk c = true) (rs : List (List Char)) :
    putSingleRuns depth fold first p (w :: rs)
      = putSingleRuns depth fold false (p.put (w.flatMap doubled)) rs := by
  have hbreak := any_isBreak fun c hc => isBreak_of_isInk (hink c hc)
  have hspace : (w == [' ']) = false := by
    refine beq_false_of_ne ?_
    rintro rfl
    cases hink ' ' (by simp)
  rw [putSingleRuns, hbreak, hspace]
  rfl

/-- A gap of blanks stands as it is, or a blank alone as a new line. -/
theorem exists_putSingleRuns_blanks {depth : Nat} (hwidth : depth ≤ bestWidth)
    (fold first : Bool) (p : Pen) {g : List Char} (hg : ∀ c ∈ g, isSpace c = true)
    (rs : List (List Char)) :
    ∃ t p', p.Wrote p' t ∧ (t = g ∨ g = [' '] ∧ t = Json.lineBreak depth)
      ∧ putSingleRuns depth fold first p (g :: rs)
        = putSingleRuns depth fold false p' rs := by
  have hblank : ∀ c ∈ g, c = ' ' := fun c hc => of_decide_eq_true (hg c hc)
  have hbreak : g.any isBreak = false :=
    any_isBreak fun c hc => by rw [hblank c hc]; rfl
  have hquote : g.flatMap doubled = g := by
    have hsame : ∀ c ∈ g, doubled c = [c] := fun c hc => by rw [hblank c hc]; rfl
    rw [List.flatMap_congr hsame, List.flatMap_singleton']
  rw [putSingleRuns, hbreak]
  simp only [Bool.false_eq_true, if_false]
  split
  next hfold =>
    simp only [Bool.and_eq_true, beq_iff_eq, decide_eq_true_eq] at hfold
    have hwrote := (Pen.wrote_indentTo_of_leave (p := p) depth
      (.inr (by omega))).1
    exact ⟨_, _, hwrote, .inr ⟨hfold.1.1.1.1, rfl⟩, rfl⟩
  next => exact ⟨_, _, p.wrote_put _, .inl hquote, rfl⟩

/-- A run of line breaks is put by itself. -/
theorem putSingleRuns_breaks (depth : Nat) (fold first : Bool) (p : Pen)
    {g : List Char} (hne : g ≠ []) (hg : ∀ c ∈ g, isBreak c = true)
    (rs : List (List Char)) :
    putSingleRuns depth fold first p (g :: rs)
      = putSingleRuns depth fold false (putBreaks depth p g) rs := by
  obtain ⟨c, cs, rfl⟩ := List.exists_cons_of_ne_nil hne
  have hany : (c :: cs).any isBreak = true := by
    rw [List.any_cons, hg c (by simp), Bool.true_or]
  rw [putSingleRuns, hany]
  rfl

/-- A run that starts with no line break is read as it stands. -/
theorem readRun_of_head {w : List Char} (hw : ∀ c ∈ w.head?, isBreak c = false) :
    readRun w = w := by
  cases w with
  | nil => rfl
  | cons c w => rw [readRun, hw c rfl]; rfl

/-- Words and gaps in single quotes are read back, up to the closing quote. The
gap before the text is empty unless a word comes first. -/
theorem exists_putSingleRuns {b : Bool} {rs : List (List Char)} (h : Alternate b rs)
    (htab : ∀ w ∈ rs, '\t' ∉ w) {depth : Nat} (hdepth : 0 < depth)
    (hwidth : depth ≤ bestWidth) (fold first : Bool) (p : Pen) :
    ∃ t, p.Wrote (putSingleRuns depth fold first p rs) t ∧
      ∀ g rest, (b = true ∨ g = .empty) → rest.head? ≠ some '\'' →
        readSingle g (t ++ '\'' :: rest)
          = some (g.text ++ rs.flatMap readRun, rest) := by
  induction h generalizing first p with
  | nil b =>
      refine ⟨[], Pen.Wrote.refl p, fun g rest _ hrest => ?_⟩
      rw [List.nil_append, readSingle_close g hrest, List.flatMap_nil, List.append_nil]
  | @word w rs hne hink h ih =>
      obtain ⟨t, hwrote, hread⟩ := ih (fun v hv => htab v (by simp [hv])) false
        (p.put (w.flatMap doubled))
      rw [putSingleRuns_word depth fold first p hink]
      refine ⟨_, (p.wrote_put _).trans hwrote, fun g rest _ hrest => ?_⟩
      have hchars : ∀ c ∈ w, isInk c = true ∧ c ≠ '\t' := fun c hc =>
        ⟨hink c hc, fun heq => htab w (by simp) (heq ▸ hc)⟩
      have hself : readRun w = w := readRun_of_head fun c hc =>
        isBreak_of_isInk (hink c (List.mem_of_mem_head? hc))
      rw [List.append_assoc, readSingle_word g hne hchars, hread .empty rest (.inr rfl) hrest,
        List.flatMap_cons, hself, ← List.append_assoc]
      rfl
  | @blanks g rs hne hblank h ih =>
      obtain ⟨u, p', hgap, hform, heq⟩ :=
        exists_putSingleRuns_blanks hwidth fold first p hblank rs
      obtain ⟨t, hwrote, hread⟩ := ih (fun v hv => htab v (by simp [hv])) false p'
      rw [heq]
      refine ⟨_, hgap.trans hwrote, fun g' rest hg' hrest => ?_⟩
      obtain rfl : g' = .empty := hg'.resolve_left (by decide)
      have hself : readRun g = g := readRun_of_head fun c hc => by
        rw [of_decide_eq_true (hblank c (List.mem_of_mem_head? hc))]
        rfl
      rw [List.append_assoc, List.flatMap_cons, hself]
      rcases hform with rfl | ⟨rfl, rfl⟩
      · rw [Gap.empty, readSingle_blanks hblank, hread _ rest (.inl rfl) hrest]
        rfl
      · have hmark : startsMark (List.replicate depth ' ' ++ (t ++ '\'' :: rest))
            = false :=
          startsMark_indent hdepth _
        rw [Json.lineBreak, List.cons_append, readSingle_break _ rfl hmark, Gap.empty,
          Gap.lineBreak, readSingle_indent, hread _ rest (.inl rfl) hrest]
        rfl
  | @breaks g rs hne hbreak h ih =>
      obtain ⟨t, hwrote, hread⟩ := ih (fun v hv => htab v (by simp [hv])) false
        (putBreaks depth p g)
      rw [putSingleRuns_breaks depth fold first p hne hbreak]
      refine ⟨_, (wrote_putBreaks p hne).trans hwrote, fun g' rest hg' hrest => ?_⟩
      obtain rfl : g' = .empty := hg'.resolve_left (by decide)
      obtain ⟨gap, htext, hgap⟩ := readSingle_quotedBreaks
        (s := t ++ '\'' :: rest) hne hbreak depth hdepth
      rw [List.append_assoc, List.append_assoc, hgap, hread gap rest (.inl rfl) hrest,
        htext, List.flatMap_cons]
      rfl

/-- A text in single quotes as it is read. -/
def singleText (s : List Char) : List Char := (runs s).flatMap readRun

/-- A text that single quotes can hold is read back from them, but for its line
breaks. -/
theorem exists_putSingle {s : List Char} (h : allowsSingle s = true) {depth : Nat}
    (hdepth : 0 < depth) (hwidth : depth ≤ bestWidth) (fold : Bool) (p : Pen) :
    ∃ t, p.Wrote (putSingle depth fold p s) (p.gap ++ '\'' :: t)
      ∧ (putSingle depth fold p s).fresh = false
      ∧ ∀ rest, rest.head? ≠ some '\'' →
          readSingle .empty (t ++ rest) = some (singleText s, rest) := by
  unfold allowsSingle at h
  simp only [Bool.and_eq_true, Bool.not_eq_true'] at h
  obtain ⟨⟨hbreak, hspace⟩, hspecial⟩ := h
  have htab : ∀ w ∈ runs s, '\t' ∉ w := fun w hw hmem =>
    List.any_eq_false.mp hspecial _ (mem_of_mem_runs hw hmem) (by decide)
  obtain ⟨t, hwrote, hread⟩ := exists_putSingleRuns
    (alternate_runs (isChain_of_hasNeighbours hspace hbreak)) htab hdepth hwidth fold
    true (p.indicator ['\''] true false false)
  refine ⟨t ++ ['\''], ?_, Bool.and_false _, fun rest hrest => ?_⟩
  · have hall := ((p.wrote_indicator ['\''] false false).trans hwrote).trans
      (Pen.wrote_indicator_joined _ ['\''] false false)
    rw [List.append_assoc, List.append_assoc] at hall
    exact hall
  · rw [List.append_assoc]
    exact hread .empty rest (.inr rfl) hrest

-- ============================================== texts that are read as they are

/-- Every other line break stands for itself. -/
theorem breakChar_of_ne {c : Char} (h : c ≠ '\u0085') : breakChar c = c := if_neg h

/-- What a line break is read as is no next-line character. -/
theorem breakChar_ne (c : Char) : breakChar c ≠ '\u0085' := by
  unfold breakChar
  split
  next => decide
  next h => exact h

/-- A run without next-line characters is read as it stands. -/
theorem readRun_of_not_mem {w : List Char} (h : '\u0085' ∉ w) : readRun w = w := by
  cases w with
  | nil => rfl
  | cons c w =>
      have hmap : (c :: w).map breakChar = c :: w :=
        (List.map_congr_left fun d hd => breakChar_of_ne fun heq => h (heq ▸ hd)).trans
          (List.map_id _)
      rw [List.map_cons] at hmap
      injection hmap with hc hw
      unfold readRun
      simp only
      split
      next hbreak =>
        split
        next => rw [List.map_cons, hc, hw]
        next hfeed =>
          rw [hc, hw, Gap.text, if_pos hfeed]
      next => rfl

/-- No next-line character is read out of a run of breaks. -/
theorem not_mem_readRun {w : List Char} (h : ∀ c ∈ w.head?, isBreak c = true) :
    '\u0085' ∉ readRun w := by
  have hmap : ∀ cs : List Char, '\u0085' ∉ cs.map breakChar := by
    intro cs hmem
    obtain ⟨c, -, hc⟩ := List.mem_map.mp hmem
    exact breakChar_ne c hc
  cases w with
  | nil => exact List.not_mem_nil
  | cons c w =>
      rw [readRun, if_pos (h c rfl)]
      split
      next => exact hmap _
      next =>
        rw [Gap.text]
        split
        next => exact hmap (c :: w)
        next =>
          split
          next => decide
          next => exact hmap w

/-- No next-line character is ever read back. -/
theorem Alternate.not_mem_readRuns {b : Bool} {rs : List (List Char)}
    (h : Alternate b rs) : '\u0085' ∉ rs.flatMap readRun := by
  have hself : ∀ {w : List Char}, (∀ c ∈ w, isBreak c = false) → '\u0085' ∉ readRun w := by
    intro w hw
    rw [readRun_of_head fun c hc => hw c (List.mem_of_mem_head? hc)]
    intro hmem
    cases hw _ hmem
  induction h with
  | nil => exact List.not_mem_nil
  | word hne hink h ih =>
      rw [List.flatMap_cons, List.mem_append, not_or]
      exact ⟨hself fun c hc => isBreak_of_isInk (hink c hc), ih⟩
  | blanks hne hblank h ih =>
      rw [List.flatMap_cons, List.mem_append, not_or]
      refine ⟨hself fun c hc => ?_, ih⟩
      rw [of_decide_eq_true (hblank c hc)]
      rfl
  | breaks hne hbreak h ih =>
      rw [List.flatMap_cons, List.mem_append, not_or]
      exact ⟨not_mem_readRun fun c hc => hbreak c (List.mem_of_mem_head? hc), ih⟩

/-- In single quotes the texts without next-line characters, and no others, are
read as they are. -/
theorem singleText_eq_self_iff {s : List Char} (h : allowsSingle s = true) :
    singleText s = s ↔ '\u0085' ∉ s := by
  have hruns : (runs s).flatten = s := List.flatten_splitBy _ s
  constructor
  · intro heq
    rw [← heq]
    unfold allowsSingle at h
    simp only [Bool.and_eq_true, Bool.not_eq_true'] at h
    exact (alternate_runs (isChain_of_hasNeighbours h.1.2 h.1.1)).not_mem_readRuns
  · intro hmem
    have hself : ∀ w ∈ runs s, readRun w = w := fun w hw =>
      readRun_of_not_mem fun hc => hmem (mem_of_mem_runs hw hc)
    unfold singleText
    rw [List.flatMap_def, List.map_congr_left hself, List.map_id', hruns]

end ApiScaffold.Yaml
