/-
Laws of blanks, trimming and lines. A text is what trimming leaves of it
between two runs of blanks (`exists_trim`), and blanks at either end make
no difference to what is left (`trim_blanks_append`). The pieces of a
text are found one by one from its start: a piece without the separator,
the separator, and the pieces of the rest (`pieces_append_cons`).
-/
import ApiScaffold.Text.Blank
import ApiScaffold.Text.Lines
import Mathlib.Algebra.Group.Nat.Even
import Mathlib.Data.List.Basic
import Mathlib.Data.List.TakeWhile

namespace ApiScaffold

-- ================================================================ blanks

/-- A text of blanks only, which may be empty. -/
def AllBlank (s : List Char) : Prop := ∀ c ∈ s, isBlank c = true

instance (s : List Char) : Decidable (AllBlank s) :=
  List.decidableBAll (fun c => isBlank c = true) s

theorem allBlank_nil : AllBlank [] := fun _ h => by cases h

theorem AllBlank.append {s t : List Char} (hs : AllBlank s)
    (ht : AllBlank t) : AllBlank (s ++ t) :=
  fun c hc => (List.mem_append.mp hc).elim (hs c) (ht c)

theorem AllBlank.reverse {s : List Char} (hs : AllBlank s) :
    AllBlank s.reverse :=
  fun c hc => hs c (List.mem_reverse.mp hc)

theorem allBlank_singleton {c : Char} (h : isBlank c = true) : AllBlank [c] :=
  fun _ hd => List.mem_singleton.mp hd ▸ h

/-- A text without blanks. -/
def AllInk (s : List Char) : Prop := ∀ c ∈ s, isBlank c = false

instance (s : List Char) : Decidable (AllInk s) :=
  List.decidableBAll (isBlank · = false) s

-- ================================================================= runs

/-- A run of characters of one kind ends where none of the kind follows. -/
theorem run_append {p : Char → Bool} {run rest : List Char}
    (hrun : ∀ c ∈ run, p c = true) (hrest : ∀ c ∈ rest.head?, p c = false) :
    (run ++ rest).takeWhile p = run ∧ (run ++ rest).dropWhile p = rest := by
  rw [List.takeWhile_append_of_pos hrun, List.dropWhile_append_of_pos hrun]
  cases rest with
  | nil => exact ⟨List.append_nil run, rfl⟩
  | cons c rest =>
      have hc : ¬ p c = true := by simp [hrest c rfl]
      rw [List.takeWhile_cons_of_neg hc, List.dropWhile_cons_of_neg hc,
        List.append_nil]
      exact ⟨rfl, rfl⟩

/-- Whether a character occurs an odd number of times changes with each
occurrence. -/
theorem decide_odd_count_concat (s : List Char) (q c : Char) :
    decide (¬ Even ((s ++ [c]).count q))
      = (decide (¬ Even (s.count q)) != (c == q)) := by
  rw [List.count_append, List.count_singleton]
  cases c == q <;> by_cases heven : Even (s.count q) <;>
    simp [heven, Nat.even_add_one]

-- ============================================================== trimming

theorem trimStart_cons_of_blank {c : Char} {s : List Char}
    (h : isBlank c = true) : trimStart (c :: s) = trimStart s :=
  List.dropWhile_cons_of_pos h

theorem trimStart_cons_of_ink {c : Char} {s : List Char}
    (h : isBlank c = false) : trimStart (c :: s) = c :: s :=
  List.dropWhile_cons_of_neg (by simp [h])

/-- Blanks in front of a text do not count once its start is trimmed. -/
theorem trimStart_blanks_append {g s : List Char} (hg : AllBlank g) :
    trimStart (g ++ s) = trimStart s :=
  List.dropWhile_append_of_pos hg

/-- Nothing is left of a text exactly when it is blank. -/
theorem trimStart_eq_nil_iff {s : List Char} :
    trimStart s = [] ↔ AllBlank s :=
  List.dropWhile_eq_nil_iff

/-- Trimming the start stops at the first part that is not all blank. -/
theorem trimStart_append (s t : List Char) :
    trimStart (s ++ t)
      = if trimStart s = [] then trimStart t else trimStart s ++ t := by
  unfold trimStart
  rw [List.dropWhile_append]
  simp only [List.isEmpty_iff]

/-- What trimming leaves starts with ink. -/
theorem head_trimStart {s rest : List Char} {c : Char}
    (h : trimStart s = c :: rest) : isBlank c = false := by
  have hhead := List.head?_dropWhile_not isBlank s
  unfold trimStart at h
  rw [h] at hhead
  simpa using hhead

/-- A start that has been trimmed stays as it is. -/
theorem trimStart_trimStart (s : List Char) :
    trimStart (trimStart s) = trimStart s := by
  cases h : trimStart s with
  | nil => rfl
  | cons c rest => exact trimStart_cons_of_ink (head_trimStart h)

/-- Blanks in front and what trimming leaves make up a text. -/
theorem exists_trimStart (s : List Char) :
    ∃ g, AllBlank g ∧ s = g ++ trimStart s :=
  ⟨s.takeWhile isBlank, fun _ hc => List.mem_takeWhile_imp hc,
    List.takeWhile_append_dropWhile.symm⟩

/-- Blanks behind a text do not count once its end is trimmed. -/
theorem trimEnd_append_blanks {s g : List Char} (hg : AllBlank g) :
    trimEnd (s ++ g) = trimEnd s := by
  unfold trimEnd
  rw [List.reverse_append, List.dropWhile_append_of_pos hg.reverse]

/-- There is nothing to trim behind a character that is no blank. -/
theorem trimEnd_append_ink {s : List Char} {c : Char}
    (h : isBlank c = false) : trimEnd (s ++ [c]) = s ++ [c] := by
  unfold trimEnd
  rw [List.reverse_append, List.reverse_singleton, List.singleton_append,
    List.dropWhile_cons_of_neg (by simp [h])]
  simp

/-- Trimming the end never reaches a character that is no blank. -/
theorem trimEnd_cons_of_ink {c : Char} (h : isBlank c = false)
    (s : List Char) : trimEnd (c :: s) = c :: trimEnd s := by
  have hstart := trimStart_append s.reverse [c]
  rw [trimStart_cons_of_ink h] at hstart
  unfold trimEnd
  rw [List.reverse_cons]
  change (trimStart _).reverse = c :: (trimStart _).reverse
  rw [hstart]
  split
  next hnil => rw [hnil]; rfl
  next => simp

/-- A blank in front is trimmed from the end only with all that follows it. -/
theorem trimEnd_cons_of_blank {c : Char} (h : isBlank c = true)
    (s : List Char) :
    trimEnd (c :: s) = if trimEnd s = [] then [] else c :: trimEnd s := by
  have hstart := trimStart_append s.reverse [c]
  rw [trimStart_cons_of_blank h] at hstart
  unfold trimEnd
  rw [List.reverse_cons]
  change (trimStart _).reverse = if (trimStart _).reverse = [] then []
    else c :: (trimStart _).reverse
  rw [hstart]
  simp only [List.reverse_eq_nil_iff]
  split
  next => rfl
  next => simp

/-- What trimming leaves and blanks behind it make up a text. -/
theorem exists_trimEnd (s : List Char) :
    ∃ g, AllBlank g ∧ s = trimEnd s ++ g := by
  obtain ⟨g, hg, heq⟩ := exists_trimStart s.reverse
  refine ⟨g.reverse, hg.reverse, ?_⟩
  have hrev := congrArg List.reverse heq
  rw [List.reverse_reverse, List.reverse_append] at hrev
  exact hrev

/-- A text is blanks, what trimming leaves, and blanks. -/
theorem exists_trim (s : List Char) :
    ∃ g g', AllBlank g ∧ AllBlank g' ∧ s = g ++ trim s ++ g' := by
  obtain ⟨g, hg, hs⟩ := exists_trimStart s
  obtain ⟨g', hg', hs'⟩ := exists_trimEnd (trimStart s)
  refine ⟨g, g', hg, hg', ?_⟩
  unfold trim
  rw [List.append_assoc, ← hs', ← hs]

/-- Blanks at the ends of a text make no difference. -/
theorem trim_blanks_append {g s g' : List Char} (hg : AllBlank g)
    (hg' : AllBlank g') : trim (g ++ s ++ g') = trim s := by
  unfold trim
  rw [List.append_assoc, trimStart_blanks_append hg, trimStart_append]
  split
  next h =>
    rw [h, trimStart_eq_nil_iff.mpr hg']
  next => exact trimEnd_append_blanks hg'

/-- Trimming takes in the trimming of the start. -/
theorem trim_trimStart (s : List Char) : trim (trimStart s) = trim s := by
  unfold trim
  rw [trimStart_trimStart]

/-- Blanks in front of a text do not count once it is trimmed. -/
theorem trim_append_of_blank {g : List Char} (hg : AllBlank g) (s : List Char) :
    trim (g ++ s) = trim s := by
  unfold trim
  rw [trimStart_blanks_append hg]

/-- Trimming takes in the trimming of the end. -/
theorem trim_trimEnd (s : List Char) : trim (trimEnd s) = trim s := by
  obtain ⟨g, hg, hs⟩ := exists_trimEnd s
  have htrim := trim_blanks_append (s := trimEnd s) allBlank_nil hg
  rw [List.nil_append, ← hs] at htrim
  exact htrim.symm

/-- The ends may be trimmed in either order. -/
theorem trimStart_trimEnd (s : List Char) : trimStart (trimEnd s) = trim s := by
  induction s with
  | nil => rfl
  | cons c s ih =>
      by_cases hc : isBlank c = true
      · have htrim : trim (c :: s) = trim s :=
          trim_append_of_blank (allBlank_singleton hc) s
        rw [htrim, ← ih, trimEnd_cons_of_blank hc]
        split
        next hnil => rw [hnil]
        next => exact trimStart_cons_of_blank hc
      · have hink : isBlank c = false := by simpa using hc
        unfold trim
        rw [trimStart_cons_of_ink hink, trimEnd_cons_of_ink hink,
          trimStart_cons_of_ink hink]

/-- Trimming leaves nothing of blanks alone. -/
theorem trim_eq_nil_iff {s : List Char} : trim s = [] ↔ AllBlank s := by
  constructor
  · intro h
    obtain ⟨g, g', hg, hg', hs⟩ := exists_trim s
    rw [hs, h, List.append_nil]
    exact hg.append hg'
  · intro h
    unfold trim
    rw [trimStart_eq_nil_iff.mpr h]
    rfl

/-- The first character that is not blank is the first one left. -/
theorem head?_trim (s : List Char) : (trim s).head? = (trimStart s).head? := by
  unfold trim
  cases h : trimStart s with
  | nil => rfl
  | cons c r =>
      rw [trimEnd_cons_of_ink (head_trimStart h)]
      rfl

/-- Trimming again changes nothing. -/
theorem trim_trim (s : List Char) : trim (trim s) = trim s := by
  obtain ⟨g, g', hg, hg', heq⟩ := exists_trim s
  conv => rhs; rw [heq]
  exact (trim_blanks_append hg hg').symm

/-- A text that ends in no blank. -/
def InkEnd (s : List Char) : Prop := ∀ c ∈ s.getLast?, isBlank c = false

/-- A text without blanks ends in none. -/
theorem inkEnd_of_ink {s : List Char} (h : AllInk s) : InkEnd s :=
  fun c hc => h c (List.mem_of_getLast? hc)

/-- What ends a text behind another ends both together. -/
theorem InkEnd.append {s t : List Char} (hs : InkEnd s) (ht : InkEnd t) :
    InkEnd (s ++ t) := by
  intro c hc
  rw [List.getLast?_append] at hc
  cases hlast : t.getLast? with
  | none => exact hs c (by simpa [hlast] using hc)
  | some d => exact ht c (by simpa [hlast] using hc)

/-- What stands before the last characters does not matter. -/
theorem InkEnd.append_left {t : List Char} (ht : InkEnd t) (hne : t ≠ [])
    (s : List Char) : InkEnd (s ++ t) := by
  intro c hc
  rw [List.getLast?_append, List.getLast?_eq_some_getLast hne,
    Option.some_or] at hc
  exact ht c (by rwa [List.getLast?_eq_some_getLast hne])

/-- Trimming stops at ink. -/
theorem trimEnd_append_of_inkEnd {s : List Char} (hne : s ≠ []) (hs : InkEnd s)
    (t : List Char) : trimEnd (s ++ t) = s ++ trimEnd t := by
  obtain ⟨front, d, rfl⟩ : ∃ front d, s = front ++ [d] :=
    ⟨_, _, (List.dropLast_concat_getLast hne).symm⟩
  have hd : isBlank d = false := hs d (by simp)
  have hstart := trimStart_append t.reverse (d :: front.reverse)
  rw [trimStart_cons_of_ink hd] at hstart
  have hreverse : (front ++ [d] ++ t).reverse
      = t.reverse ++ d :: front.reverse := by simp
  unfold trimEnd
  rw [hreverse]
  change (trimStart _).reverse = _ ++ (trimStart _).reverse
  rw [hstart]
  split
  next hnil => simp [hnil]
  next => simp

/-- The end of two texts is the end of the second. -/
theorem InkEnd.of_append {s t : List Char} (h : InkEnd (s ++ t)) : InkEnd t := by
  intro c hc
  refine h c ?_
  rw [List.getLast?_append, hc]
  rfl

/-- Only the blanks in front are trimmed where the end is ink. -/
theorem InkEnd.exists_trim {s : List Char} (h : InkEnd s) :
    ∃ g, AllBlank g ∧ s = g ++ trim s := by
  obtain ⟨g, hg, hs⟩ := exists_trimStart s
  refine ⟨g, hg, ?_⟩
  have hend : trimEnd (trimStart s) = trimStart s := by
    by_cases hnil : trimStart s = []
    · rw [hnil]
      rfl
    · have htrim := trimEnd_append_of_inkEnd hnil (hs ▸ h).of_append []
      rwa [List.append_nil, show trimEnd [] = [] from rfl, List.append_nil] at htrim
  unfold trim
  rw [hend, ← hs]

/-- What trimming leaves ends in ink. -/
theorem inkEnd_trim (s : List Char) : InkEnd (trim s) := by
  intro c hc
  unfold trim trimEnd at hc
  rw [List.getLast?_reverse] at hc
  obtain ⟨r, hr⟩ := List.head?_eq_some_iff.mp hc
  exact head_trimStart hr

/-- A text whose ends are not blank is not trimmed. -/
theorem trim_cons_of_inkEnd {c : Char} {s : List Char}
    (hc : isBlank c = false) (h : InkEnd (c :: s)) :
    trim (c :: s) = c :: s := by
  unfold trim
  rw [trimStart_cons_of_ink hc]
  obtain ⟨front, d, hsnoc⟩ : ∃ front d, c :: s = front ++ [d] :=
    ⟨_, _, (List.dropLast_concat_getLast (List.cons_ne_nil c s)).symm⟩
  rw [hsnoc] at h ⊢
  exact trimEnd_append_ink (h d (by simp))

/-- A text without blanks is not trimmed. -/
theorem trim_of_ink {s : List Char} (h : AllInk s) : trim s = s := by
  cases s with
  | nil => rfl
  | cons c s =>
      exact trim_cons_of_inkEnd (h c (List.mem_cons_self ..)) (inkEnd_of_ink h)

-- ================================================================ pieces

/-- Every text has a piece, if only the empty one. -/
theorem pieces_ne_nil (sep : Char) (s : List Char) : pieces sep s ≠ [] := by
  unfold pieces
  cases s with
  | nil => simp
  | cons c s =>
      rw [List.foldr_cons]
      split
      · simp
      · split <;> simp

/-- A separator in front parts the empty piece from the rest. -/
theorem pieces_cons_sep (sep : Char) (s : List Char) :
    pieces sep (sep :: s) = [] :: pieces sep s := by
  unfold pieces
  rw [List.foldr_cons, if_pos rfl]

/-- A character that is no separator belongs to the first piece. -/
theorem pieces_cons_of_ne {sep c : Char} (h : c ≠ sep) {s part : List Char}
    {rest : List (List Char)} (hs : pieces sep s = part :: rest) :
    pieces sep (c :: s) = (c :: part) :: rest := by
  unfold pieces at hs ⊢
  rw [List.foldr_cons, if_neg h, hs]

/-- The first piece ends at the first separator. -/
theorem pieces_append_cons {sep : Char} {l : List Char} (h : sep ∉ l)
    (s : List Char) : pieces sep (l ++ sep :: s) = l :: pieces sep s := by
  induction l with
  | nil => exact pieces_cons_sep sep s
  | cons c l ih =>
      have hc : c ≠ sep := fun heq => h (heq ▸ List.mem_cons_self ..)
      have hl : sep ∉ l := fun hmem => h (List.mem_cons_of_mem _ hmem)
      exact pieces_cons_of_ne hc (ih hl)

/-- A text without separators is one piece. -/
theorem pieces_of_not_mem {sep : Char} {l : List Char} (h : sep ∉ l) :
    pieces sep l = [l] := by
  induction l with
  | nil => rfl
  | cons c l ih =>
      have hc : c ≠ sep := fun heq => h (heq ▸ List.mem_cons_self ..)
      have hl : sep ∉ l := fun hmem => h (List.mem_cons_of_mem _ hmem)
      exact pieces_cons_of_ne hc (ih hl)

/-- No piece holds the separator. -/
theorem not_mem_of_mem_pieces {sep : Char} {s l : List Char}
    (h : l ∈ pieces sep s) : sep ∉ l := by
  induction s generalizing l with
  | nil =>
      rw [List.mem_singleton.mp h]
      simp
  | cons c s ih =>
      by_cases hc : c = sep
      · rw [hc, pieces_cons_sep] at h
        rcases List.mem_cons.mp h with rfl | h
        · simp
        · exact ih h
      · obtain ⟨part, rest, hs⟩ := List.exists_cons_of_ne_nil
          (pieces_ne_nil sep s)
        rw [pieces_cons_of_ne hc hs] at h
        rw [hs] at ih
        rcases List.mem_cons.mp h with rfl | h
        · rw [List.mem_cons, not_or]
          exact ⟨fun heq => hc heq.symm, ih (List.mem_cons_self ..)⟩
        · exact ih (List.mem_cons_of_mem _ h)

/-- A separator ends the pieces of the text before it. -/
theorem pieces_append_sep_cons (sep : Char) (s t : List Char) :
    pieces sep (s ++ sep :: t) = pieces sep s ++ pieces sep t := by
  induction s with
  | nil => simp [pieces]
  | cons c s ih =>
      rw [List.cons_append]
      by_cases hc : c = sep
      · rw [hc, pieces_cons_sep, pieces_cons_sep, ih, List.cons_append]
      · obtain ⟨part, rest, hs⟩ := List.exists_cons_of_ne_nil
          (pieces_ne_nil sep s)
        rw [hs, List.cons_append] at ih
        rw [pieces_cons_of_ne hc ih, pieces_cons_of_ne hc hs, List.cons_append]

/-- A separator at the end starts an empty last piece. -/
theorem pieces_append_sep (sep : Char) (s : List Char) :
    pieces sep (s ++ [sep]) = pieces sep s ++ [[]] := by
  induction s with
  | nil => simp [pieces]
  | cons c s ih =>
      rw [List.cons_append]
      by_cases hc : c = sep
      · rw [hc, pieces_cons_sep, pieces_cons_sep, ih, List.cons_append]
      · obtain ⟨part, rest, hs⟩ := List.exists_cons_of_ne_nil
          (pieces_ne_nil sep s)
        rw [hs, List.cons_append] at ih
        rw [pieces_cons_of_ne hc ih, pieces_cons_of_ne hc hs, List.cons_append]

/-- Any other character at the end joins the last piece. -/
theorem pieces_append_of_ne {sep c : Char} (h : c ≠ sep) {s last : List Char}
    {front : List (List Char)} (hs : pieces sep s = front ++ [last]) :
    pieces sep (s ++ [c]) = front ++ [last ++ [c]] := by
  induction s generalizing front last with
  | nil =>
      obtain ⟨rfl, rfl⟩ : front = [] ∧ last = [] := by
        cases front <;> simp_all [pieces]
      simp [pieces, h]
  | cons d s ih =>
      by_cases hd : d = sep
      · rw [hd, pieces_cons_sep] at hs
        cases front with
        | nil => exact absurd (List.cons.inj hs).2 (pieces_ne_nil sep s)
        | cons first front =>
            obtain ⟨rfl, hrest⟩ := List.cons.inj hs
            rw [List.cons_append, hd, pieces_cons_sep, ih hrest]
            rfl
      · obtain ⟨part, rest, hpart⟩ := List.exists_cons_of_ne_nil
          (pieces_ne_nil sep s)
        rw [pieces_cons_of_ne hd hpart] at hs
        cases front with
        | nil =>
            obtain ⟨rfl, rfl⟩ := List.cons.inj hs
            have hone : pieces sep s = [] ++ [part] := hpart
            exact pieces_cons_of_ne hd (ih hone)
        | cons first front =>
            obtain ⟨rfl, rfl⟩ := List.cons.inj hs
            have hmore : pieces sep s = (part :: front) ++ [last] := hpart
            exact pieces_cons_of_ne hd (ih hmore)

-- ========================================================== line endings

/-- Only carriage returns are rewritten. -/
theorem unifyBreaks_cons_of_ne {c : Char} (h : c ≠ '\r') (s : List Char) :
    unifyBreaks (c :: s) = c :: unifyBreaks s := by
  rw [unifyBreaks]
  · intro r heq
    exact absurd heq h
  · exact h

/-- Without carriage returns there is nothing to make uniform. -/
theorem unifyBreaks_append {l : List Char} (h : '\r' ∉ l) (s : List Char) :
    unifyBreaks (l ++ s) = l ++ unifyBreaks s := by
  induction l with
  | nil => rfl
  | cons c l ih =>
      have hc : c ≠ '\r' := fun heq => h (heq ▸ List.mem_cons_self ..)
      have hl : '\r' ∉ l := fun hmem => h (List.mem_cons_of_mem _ hmem)
      rw [List.cons_append, unifyBreaks_cons_of_ne hc, ih hl, List.cons_append]

/-- A text without carriage returns has its line breaks unified already. -/
theorem unifyBreaks_of_not_mem {l : List Char} (h : '\r' ∉ l) :
    unifyBreaks l = l := by
  have happend := unifyBreaks_append h []
  rwa [List.append_nil, unifyBreaks, List.append_nil] at happend

/-- No carriage return is left. -/
theorem not_mem_unifyBreaks (s : List Char) : '\r' ∉ unifyBreaks s := by
  fun_induction unifyBreaks s with
  | case1 => simp
  | case2 s ih => simpa using ih
  | case3 s _ ih => simpa using ih
  | case4 c s _ hc ih =>
      rw [List.mem_cons, not_or]
      exact ⟨fun heq => hc heq.symm, ih⟩

/-- Unifying the line breaks makes no text longer. -/
theorem length_unifyBreaks_le (s : List Char) :
    (unifyBreaks s).length ≤ s.length := by
  fun_induction unifyBreaks s with
  | case1 => exact Nat.le_refl _
  | case2 s ih => simp only [List.length_cons]; omega
  | case3 s _ ih => simp only [List.length_cons]; omega
  | case4 c s _ _ ih => simp only [List.length_cons]; omega

/-- Byte order marks at the start are dropped, up to the first character
that is none. -/
theorem normalize_replicate_append {s : List Char}
    (h : s.head? ≠ some '\uFEFF') (n : Nat) :
    normalize (List.replicate n '\uFEFF' ++ s) = unifyBreaks s := by
  have hmarks : ∀ c ∈ List.replicate n '\uFEFF', (c == '\uFEFF') = true := by
    intro c hc
    exact beq_iff_eq.mpr (List.mem_replicate.mp hc).2
  unfold normalize
  rw [List.dropWhile_append_of_pos hmarks]
  cases s with
  | nil => rfl
  | cons c s =>
      have hc : c ≠ '\uFEFF' := fun heq => h (congrArg some heq)
      rw [List.dropWhile_cons_of_neg (by simpa using hc)]

/-- The normalised texts: no carriage return, and no byte order mark at the
start. -/
theorem normalize_eq_self_iff {s : List Char} :
    normalize s = s ↔ '\r' ∉ s ∧ s.head? ≠ some '\uFEFF' := by
  constructor
  · intro h
    refine ⟨h ▸ not_mem_unifyBreaks _, fun hhead => ?_⟩
    obtain ⟨r, rfl⟩ := List.head?_eq_some_iff.mp hhead
    have hshort := length_unifyBreaks_le (('\uFEFF' :: r).dropWhile (· == '\uFEFF'))
    have hdrop := (List.dropWhile_suffix (· == '\uFEFF') (l := r)).length_le
    change normalize ('\uFEFF' :: r) = '\uFEFF' :: r at h
    unfold normalize at h
    rw [h, List.dropWhile_cons_of_pos (by simp), List.length_cons] at hshort
    omega
  · rintro ⟨hreturn, hmark⟩
    have hplain := normalize_replicate_append hmark 0
    rw [List.replicate_zero, List.nil_append] at hplain
    rw [hplain, unifyBreaks_of_not_mem hreturn]

end ApiScaffold
