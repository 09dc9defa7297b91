/-
Runs of characters and the pen that writes them. The printer sees a text as runs
of blanks, of line breaks and of other characters; where no blank stands by a
break, these are words and gaps in turn (`alternate_runs`), and proofs about the
printer go through them in the same order. What a pen has written between two
moments is kept apart from where it stands (`Pen.Wrote`, `Pen.At`).
-/
import ApiScaffold.Proofs.Yaml.Reader
import ApiScaffold.Yaml.Printer
import Mathlib.Data.List.SplitBy
import Mathlib.Data.List.TakeWhile

namespace ApiScaffold.Yaml

-- ================================================================== runs

/-- A character of a word: neither a blank nor a line break. -/
def isInk (c : Char) : Bool := !isSpace c && !isBreak c

theorem isBreak_of_isInk {c : Char} (h : isInk c = true) : isBreak c = false := by
  unfold isInk at h
  revert h
  cases isBreak c <;> simp

theorem isSpace_of_isInk {c : Char} (h : isInk c = true) : isSpace c = false := by
  unfold isInk at h
  revert h
  cases isSpace c <;> simp

theorem ne_space_of_isInk {c : Char} (h : isInk c = true) : c ≠ ' ' := by
  rintro rfl
  cases h

/-- No blank belongs to a word. -/
theorem isInk_of_isSpace {c : Char} (h : isSpace c = true) : isInk c = false := by
  rw [isInk, h]
  rfl

/-- No line break belongs to a word. -/
theorem isInk_of_isBreak {c : Char} (h : isBreak c = true) : isInk c = false := by
  rw [isInk, h, Bool.not_true, Bool.and_false]

/-- What is neither a blank nor a line break belongs to a word. -/
theorem isInk_of_eq_false {c : Char} (hspace : isSpace c = false)
    (hbreak : isBreak c = false) : isInk c = true := by
  rw [isInk, hspace, hbreak]
  rfl

/-- Words and gaps in turn; a gap holds blanks or line breaks, not both. The
flag tells whether a word comes first. -/
inductive Alternate : Bool → List (List Char) → Prop
  | nil (b : Bool) : Alternate b []
  | word {w : List Char} {rs : List (List Char)} (hne : w ≠ [])
      (hink : ∀ c ∈ w, isInk c = true) (h : Alternate false rs) :
      Alternate true (w :: rs)
  | blanks {g : List Char} {rs : List (List Char)} (hne : g ≠ [])
      (hblank : ∀ c ∈ g, isSpace c = true) (h : Alternate true rs) :
      Alternate false (g :: rs)
  | breaks {g : List Char} {rs : List (List Char)} (hne : g ≠ [])
      (hbreak : ∀ c ∈ g, isBreak c = true) (h : Alternate true rs) :
      Alternate false (g :: rs)

/-- No line break is a blank. -/
theorem isSpace_of_isBreak {c : Char} (h : isBreak c = true) :
    isSpace c = false := by
  rw [Bool.eq_false_iff]
  intro hspace
  rw [of_decide_eq_true hspace] at h
  cases h

/-- Two characters side by side that are no gap of two kinds. -/
def Unmixed (c d : Char) : Prop :=
  (isSpace c && isBreak d) = false ∧ (isBreak c && isSpace d) = false

/-- Where no blank stands by a line break, no gap has two kinds. -/
theorem isChain_of_hasNeighbours {s : List Char}
    (hspace : hasNeighbours isSpace isBreak s = false)
    (hbreak : hasNeighbours isBreak isSpace s = false) : s.IsChain Unmixed := by
  induction s with
  | nil => exact .nil
  | cons c s ih =>
      cases s with
      | nil => exact .singleton c
      | cons d s =>
          rw [hasNeighbours, Bool.or_eq_false_iff] at hspace hbreak
          exact .cons_cons ⟨hspace.1, hbreak.1⟩ (ih hspace.2 hbreak.2)

/-- The runs of a text hold its characters only. -/
theorem mem_of_mem_runs {s w : List Char} (hw : w ∈ runs s) {c : Char} (hc : c ∈ w) :
    c ∈ s := by
  have hflatten : (runs s).flatten = s := List.flatten_splitBy _ s
  rw [← hflatten]
  exact List.mem_flatten.mpr ⟨w, hw, hc⟩

/-- A run at the front of a text, told by a property that its characters share
with those of its kind only. -/
theorem runs_append {p : Char → Bool}
    (hp : ∀ c d, p c = true →
      (isSpace c == isSpace d && isBreak c == isBreak d) = p d)
    {w m : List Char} (hne : w ≠ []) (hw : ∀ c ∈ w, p c = true)
    (hm : ∀ c ∈ m.head?, p c = false) : runs (w ++ m) = w :: runs m := by
  unfold runs
  rw [List.splitBy_append, List.splitBy_of_isChain hne]
  · rfl
  · refine List.Pairwise.isChain (List.pairwise_iff_forall_sublist.mpr ?_)
    intro c d hcd
    have hmem := hcd.subset
    rw [hp c d (hw c (hmem (by simp)))]
    exact hw d (hmem (by simp))
  · intro c hc d hd
    rw [hp c d (hw c (List.mem_of_mem_getLast? hc))]
    exact hm d hd

/-- Runs put a character of a word with those of words. -/
theorem kind_of_isInk (c d : Char) (hc : isInk c = true) :
    (isSpace c == isSpace d && isBreak c == isBreak d) = isInk d := by
  unfold isInk at *
  revert hc
  cases isSpace c <;> cases isSpace d <;> cases isBreak c <;> cases isBreak d <;> simp

/-- Runs put a blank with blanks. -/
theorem kind_of_isSpace (c d : Char) (hc : isSpace c = true) :
    (isSpace c == isSpace d && isBreak c == isBreak d) = isSpace d := by
  have hbreak : ∀ e, isSpace e = true → isBreak e = false := by
    intro e he
    rw [of_decide_eq_true he]
    rfl
  have hc' := hbreak c hc
  have hd' := hbreak d
  revert hc hc' hd'
  cases isSpace c <;> cases isSpace d <;> cases isBreak c <;> cases isBreak d <;> simp

/-- Runs put a line break with line breaks. -/
theorem kind_of_isBreak (c d : Char) (hc : isBreak c = true) :
    (isSpace c == isSpace d && isBreak c == isBreak d) = isBreak d := by
  have hc' := isSpace_of_isBreak hc
  have hd' := isSpace_of_isBreak (c := d)
  revert hc hc' hd'
  cases isSpace c <;> cases isSpace d <;> cases isBreak c <;> cases isBreak d <;> simp

/-- The run at the front of a text and what follows it, told by a property. -/
theorem exists_run {p : Char → Bool} {c : Char} {s : List Char}
    (hc : p c = true) :
    ∃ w m, c :: s = w ++ m ∧ w ≠ [] ∧ (∀ d ∈ w, p d = true)
      ∧ (∀ d ∈ m.head?, p d = false) := by
  refine ⟨(c :: s).takeWhile p, (c :: s).dropWhile p,
    List.takeWhile_append_dropWhile.symm, ?_, ?_, ?_⟩
  · rw [List.takeWhile_cons_of_pos hc]
    exact List.cons_ne_nil _ _
  · exact fun d hd => List.mem_takeWhile_imp hd
  · intro d hd
    have := List.head?_dropWhile_not p (c :: s)
    rw [Option.mem_def.mp hd] at this
    simpa using this

/-- Whether a word comes first is seen from the first character. -/
theorem Alternate.of_head {b : Bool} {m : List Char}
    (h : Alternate (m.head?.all isInk) (runs m))
    (hhead : ∀ d ∈ m.head?, isInk d = b) : Alternate b (runs m) := by
  cases m with
  | nil => exact .nil b
  | cons d m =>
      have hd := hhead d rfl
      rwa [List.head?_cons, Option.all_some, hd] at h

/-- The first run of a text, and what is behind it: a shorter text, whose first
character is of another kind and agrees with one of the run. -/
theorem exists_runs_cons {p : Char → Bool}
    (hp : ∀ c d, p c = true →
      (isSpace c == isSpace d && isBreak c == isBreak d) = p d)
    {c : Char} {s : List Char} (hc : p c = true) (h : (c :: s).IsChain Unmixed) :
    ∃ w m, runs (c :: s) = w :: runs m ∧ w ≠ [] ∧ (∀ d ∈ w, p d = true)
      ∧ m.length < (c :: s).length ∧ m.IsChain Unmixed
      ∧ ∀ d ∈ m.head?, p d = false ∧ ∃ x, p x = true ∧ Unmixed x d := by
  obtain ⟨w, m, hwm, hne, hw, hm⟩ := exists_run (s := s) hc
  have hpos := List.length_pos_of_ne_nil hne
  rw [hwm, List.isChain_append] at h
  rw [hwm, runs_append hp hne hw hm, List.length_append]
  refine ⟨w, m, rfl, hne, hw, by omega, h.2.1, fun d hd => ⟨hm d hd, ?_⟩⟩
  have hlast := List.getLast?_eq_some_getLast hne
  exact ⟨_, hw _ (List.getLast_mem hne), h.2.2 _ hlast d hd⟩

/-- The runs of a text whose breaks stand by no blanks are words and gaps in
turn. -/
theorem alternate_runs {s : List Char} (h : s.IsChain Unmixed) :
    Alternate (s.head?.all isInk) (runs s) := by
  induction hn : s.length using Nat.strongRecOn generalizing s with
  | ind n ih =>
      subst hn
      cases s with
      | nil => exact .nil _
      | cons c s =>
          rw [List.head?_cons, Option.all_some]
          by_cases hspace : isSpace c = true
          · obtain ⟨w, m, hruns, hne, hw, hlt, hchain, hmeet⟩ :=
              exists_runs_cons kind_of_isSpace hspace h
            rw [hruns, isInk_of_isSpace hspace]
            refine .blanks hne hw ((ih _ hlt hchain rfl).of_head fun d hd => ?_)
            -- behind a blank stands no break
            obtain ⟨hd', x, hx, hunmixed, -⟩ := hmeet d hd
            rw [hx, Bool.true_and] at hunmixed
            exact isInk_of_eq_false hd' hunmixed
          by_cases hbreak : isBreak c = true
          · obtain ⟨w, m, hruns, hne, hw, hlt, hchain, hmeet⟩ :=
              exists_runs_cons kind_of_isBreak hbreak h
            rw [hruns, isInk_of_isBreak hbreak]
            refine .breaks hne hw ((ih _ hlt hchain rfl).of_head fun d hd => ?_)
            -- behind a break stands no blank
            obtain ⟨hd', x, hx, -, hunmixed⟩ := hmeet d hd
            rw [hx, Bool.true_and] at hunmixed
            exact isInk_of_eq_false hunmixed hd'
          · have hink : isInk c = true :=
              isInk_of_eq_false (Bool.eq_false_iff.mpr hspace)
                (Bool.eq_false_iff.mpr hbreak)
            obtain ⟨w, m, hruns, hne, hw, hlt, hchain, hmeet⟩ :=
              exists_runs_cons kind_of_isInk hink h
            rw [hruns, hink]
            exact .word hne hw
              ((ih _ hlt hchain rfl).of_head fun d hd => (hmeet d hd).1)

-- =============================================================== the pen

namespace Pen

/-- What a pen has written between two moments. -/
def Wrote (p q : Pen) (t : List Char) : Prop := q.written = t.reverse ++ p.written

/-- The pen stands behind the indentation of a line. -/
structure At (p : Pen) (depth : Nat) : Prop where
  column : p.column = depth
  blank : p.blank = true
  fresh : p.fresh = true

variable {p q r : Pen} {t u : List Char}

theorem Wrote.refl (p : Pen) : p.Wrote p [] := rfl

/-- What has been written in two steps stands one behind the other. -/
theorem Wrote.trans (h : p.Wrote q t) (h' : q.Wrote r u) : p.Wrote r (t ++ u) := by
  unfold Wrote at *
  rw [h', h, List.reverse_append, List.append_assoc]

/-- A pen has written just one text between two moments. -/
theorem Wrote.unique (h : p.Wrote q t) (h' : p.Wrote q u) : t = u :=
  List.reverse_inj.mp (List.append_cancel_right (h.symm.trans h'))

/-- A text is put as it stands. -/
theorem wrote_put (p : Pen) (t : List Char) : p.Wrote (p.put t) t := rfl

/-- A line break is written as itself. -/
theorem wrote_breakLine (p : Pen) (c : Char) : p.Wrote (p.breakLine c) [c] := rfl

/-- On a line without content the pen goes on to a depth. -/
theorem wrote_indentTo_of_fresh (depth : Nat) (hfresh : p.fresh = true)
    (hcolumn : p.column ≤ depth) (hblank : p.column = depth → p.blank = true) :
    p.Wrote (p.indentTo depth) (List.replicate (depth - p.column) ' ')
      ∧ (p.indentTo depth).At depth := by
  have hstay : (!p.fresh || decide (p.column > depth)
      || (p.column == depth && !p.blank)) = false := by
    rw [hfresh, decide_eq_false (Nat.not_lt.mpr hcolumn)]
    by_cases h : p.column = depth
    · rw [hblank h]
      simp
    · simp [h]
  unfold indentTo
  simp only [hstay, Bool.false_eq_true, if_false]
  split
  next hlt =>
    refine ⟨rfl, ?_, rfl, hfresh⟩
    show p.column + (List.replicate (depth - p.column) ' ').length = depth
    rw [List.length_replicate]
    omega
  next hle =>
    have heq : p.column = depth := by omega
    refine ⟨?_, heq, hblank heq, hfresh⟩
    rw [heq, Nat.sub_self]
    exact Wrote.refl p

/-- From a line with content, or from behind a depth, the pen goes to a new
line. -/
theorem wrote_indentTo_of_leave (depth : Nat)
    (h : p.fresh = false ∨ depth < p.column) :
    p.Wrote (p.indentTo depth) (Json.lineBreak depth)
      ∧ (p.indentTo depth).At depth := by
  have hleave : (!p.fresh || decide (p.column > depth)
      || (p.column == depth && !p.blank)) = true := by
    rcases h with h | h
    · rw [h]
      rfl
    · rw [decide_eq_true h, Bool.or_true, Bool.true_or]
  have heq : p.indentTo depth = (p.breakLine '\n').indentTo depth := by
    have hstay : (!(p.breakLine '\n').fresh
        || decide ((p.breakLine '\n').column > depth)
        || ((p.breakLine '\n').column == depth && !(p.breakLine '\n').blank))
          = false := by
      simp [breakLine]
    unfold indentTo
    simp only [hleave, hstay, Bool.false_eq_true, if_true, if_false]
  obtain ⟨hwrote, hat⟩ := wrote_indentTo_of_fresh (p := p.breakLine '\n')
    depth rfl (Nat.zero_le _) (fun _ => rfl)
  rw [heq]
  exact ⟨(p.wrote_breakLine '\n').trans hwrote, hat⟩

/-- The blank that parts a token from what stands before it. -/
def gap (p : Pen) : List Char := if p.blank then [] else [' ']

/-- A spaced indicator has the gap of the pen in front of it. -/
theorem wrote_indicator (p : Pen) (t : List Char) (blank fresh : Bool) :
    p.Wrote (p.indicator t true blank fresh) (p.gap ++ t) := by
  unfold Wrote indicator gap put
  cases p.blank <;> rfl

/-- An indicator that is not spaced is written alone. -/
theorem wrote_indicator_joined (p : Pen) (t : List Char) (blank fresh : Bool) :
    p.Wrote (p.indicator t false blank fresh) t := by
  unfold Wrote indicator put
  cases p.blank <;> rfl

end Pen

-- ================================================================= marks

/-- No mark starts with this character. -/
theorem startsMark_cons {c : Char} (h : c ≠ '-' ∧ c ≠ '.') (s : List Char) :
    startsMark (c :: s) = false := by
  have hfirst : ∀ {d : Char}, c ≠ d → ∀ ds, (d :: ds).isPrefixOf (c :: s) = false := by
    intro d hd ds
    rw [List.isPrefixOf, beq_false_of_ne hd.symm, Bool.false_and]
  have hdash : "---".toList.isPrefixOf (c :: s) = false := hfirst h.1 _
  have hdots : "...".toList.isPrefixOf (c :: s) = false := hfirst h.2 _
  unfold startsMark
  rw [hdash, hdots]
  rfl

/-- No line break starts a document mark. -/
theorem ne_mark_of_isBreak {c : Char} (h : isBreak c = true) : c ≠ '-' ∧ c ≠ '.' := by
  constructor <;> (rintro rfl; cases h)

/-- No document mark stands behind an indentation. -/
theorem startsMark_indent {depth : Nat} (hdepth : 0 < depth) (s : List Char) :
    startsMark (List.replicate depth ' ' ++ s) = false := by
  obtain ⟨n, rfl⟩ : ∃ n, depth = n + 1 := ⟨depth - 1, by omega⟩
  exact startsMark_cons (by decide) _

end ApiScaffold.Yaml
