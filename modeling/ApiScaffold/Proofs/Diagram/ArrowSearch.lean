/-
The search for the arrow of a line that is made of tokens. A token with a
blank behind it is passed over if no arrow starts in it (`Passed`): a name
is all identifier characters and no arrow goes on with one, what stands in
quotes is not looked at, the dots of a bare range stand between characters
of a multiplicity, and no arrow starts with a blank. Texts that are passed
over may be put one behind the other, so the search comes to the arrow that
was written (`Arrow.find?_append_text`). A line that has no stroke or dot
behind its first character holds no arrow at all.
-/
import ApiScaffold.Diagram.Relation
import ApiScaffold.Proofs.Diagram.CountToken
import ApiScaffold.Proofs.Text.Character

namespace ApiScaffold

-- ============================================================== arrows

namespace Arrow

variable {before : Option Char} {b c d : Char} {s : List Char}

theorem at?_eq_none (h : ∀ a : Arrow, ¬ a.text.toList <+: s) :
    at? before s = none := by
  unfold at? stands
  refine List.find?_eq_none.mpr fun a _ hstands => ?_
  rw [Bool.and_eq_true, List.isPrefixOf_iff_prefix] at hstands
  exact h a hstands.1

/-- The first character of an arrow is one of five. -/
theorem at?_of_first (h : c ∉ ['<', '-', '.', '*', 'o']) :
    at? before (c :: s) = none := by
  refine at?_eq_none fun a hprefix => ?_
  obtain ⟨r, hr⟩ := hprefix
  cases a <;>
    (injection hr with hc _
     rw [← hc] at h
     exact h (by decide))

/-- The second character of an arrow is a bar, a stroke or a dot. -/
theorem at?_of_second (h : d ∉ ['|', '-', '.']) :
    at? before (c :: d :: s) = none := by
  refine at?_eq_none fun a hprefix => ?_
  obtain ⟨r, hr⟩ := hprefix
  cases a <;>
    (injection hr with _ hr; injection hr with hd _
     rw [← hd] at h
     exact h (by decide))

/-- No arrow starts with a blank. -/
theorem at?_blank (hb : isBlank b = true) : at? before (b :: s) = none := by
  refine at?_of_first fun hmem => ?_
  have hnone : ['<', '-', '.', '*', 'o'].any isBlank = false := by decide
  exact List.any_eq_false.mp hnone b hmem hb

/-- Behind its first character every arrow has a stroke or a dot. -/
theorem at?_of_tail (h : ∀ e ∈ s.tail, e ≠ '-' ∧ e ≠ '.') :
    at? before s = none := by
  refine at?_eq_none fun a hprefix => ?_
  obtain ⟨r, rfl⟩ := hprefix
  have htail : (a.text.toList.tail.any fun e => e = '-' || e = '.') = true := by
    cases a <;> decide
  obtain ⟨e, he, hstroke⟩ := List.any_eq_true.mp htail
  simp only [Bool.or_eq_true, decide_eq_true_eq] at hstroke
  have hmem : e ∈ (a.text.toList ++ r).tail := by
    cases htext : a.text.toList with
    | nil => rw [htext] at he; cases he
    | cons x t =>
        rw [htext] at he
        exact List.mem_append_left r he
  obtain ⟨hdash, hdot⟩ := h e hmem
  exact hstroke.elim hdash hdot

/-- Two dots between characters of a multiplicity are no arrow. -/
theorem at?_range (hc : isCountChar c = true) (hd : isCountChar d = true) :
    at? (some c) ('.' :: '.' :: d :: s) = none := by
  have hbar : '|' ≠ d := by
    rintro rfl
    exact absurd hd (by decide)
  have hangle : '>' ≠ d := by
    rintro rfl
    exact absurd hd (by decide)
  have hdots : "..".length = 2 := rfl
  simp [at?, all, stands, text, isRejected, List.isPrefixOf, hc, hd, hbar,
    hangle, hdots]

/-- A blank in front of a place counts as nothing there. -/
theorem at?_behind_blank (hb : isBlank b = true) :
    at? (some b) s = at? none s := by
  have hword : isWord b = false := isWord_of_isBlank hb
  have hcount : isCountChar b = false := by
    have hdigit : b.isDigit = false := by
      cases h : b.isDigit with
      | false => rfl
      | true => rw [isWord_of_isDigit h] at hword; cases hword
    unfold isCountChar
    rw [hdigit]
    simpa using ne_of_isBlank hb (d := '*') (by decide)
  unfold at? stands
  congr 1
  funext a
  congr 2
  cases a <;> simp [isRejected, continuesWord, hword, hcount]

/-- A written arrow with a blank behind it is the longest that stands
there. -/
theorem at?_text (a : Arrow) (hb : isBlank b = true) (s : List Char) :
    at? none (a.text.toList ++ b :: s) = some a := by
  have hne : ∀ {d : Char}, isBlank d = false → d ≠ b :=
    fun hd => (ne_of_isBlank hb hd).symm
  have hbar : '|' ≠ b := hne (by decide)
  have hangle : '>' ≠ b := hne (by decide)
  have hstar : '*' ≠ b := hne (by decide)
  have ho : 'o' ≠ b := hne (by decide)
  have hword : isWord b = false := isWord_of_isBlank hb
  have hlength : "--o".length = 3 := rfl
  cases a <;>
    simp [at?, all, stands, text, isRejected, continuesWord, List.isPrefixOf,
      hbar, hangle, hstar, ho, hword, hlength]

-- ============================================================== search

/-- The cut of a line that has more text in front. -/
def Cut.behind (front : List Char) (cut : Cut) : Cut :=
  { cut with left := front ++ cut.left }

theorem behind_behind (front more : List Char) :
    Cut.behind front ∘ Cut.behind more = Cut.behind (front ++ more) := by
  funext cut
  unfold Cut.behind
  simp only [Function.comp_apply, List.append_assoc]

theorem findFrom?_cons (hc : c ≠ '"') (h : at? before (c :: s) = none) :
    findFrom? before false (c :: s)
      = (findFrom? (some c) false s).map (Cut.behind [c]) := by
  have hquote : (c == '"') = false := beq_eq_false_iff_ne.mpr hc
  rw [findFrom?]
  simp [hc, hquote, h]
  rfl

/-- A line without strokes and dots behind its first character has no
arrow. -/
theorem findFrom?_of_tail {quoted : Bool}
    (h : ∀ e ∈ s.tail, e ≠ '-' ∧ e ≠ '.') :
    findFrom? before quoted s = none := by
  induction s generalizing before quoted with
  | nil => rfl
  | cons c s ih =>
      have hrest : ∀ e ∈ s.tail, e ≠ '-' ∧ e ≠ '.' :=
        fun e he => h e (List.mem_of_mem_tail he)
      rw [findFrom?, at?_of_tail h, ite_self, ih hrest]
      rfl

theorem findFrom?_behind_blank (hb : isBlank b = true) (quoted : Bool) :
    findFrom? (some b) quoted s = findFrom? none quoted s := by
  cases s with
  | nil => rfl
  | cons c s => rw [findFrom?, findFrom?, at?_behind_blank hb]

/-- A blank is passed over, whatever stands before it. -/
theorem findFrom?_blank_cons (hb : isBlank b = true) :
    findFrom? before false (b :: s)
      = (findFrom? none false s).map (Cut.behind [b]) := by
  rw [findFrom?_cons (ne_of_isBlank hb (by decide)) (at?_blank hb),
    findFrom?_behind_blank hb]

-- ========================================================= passed texts

/-- No arrow starts in a text, and none of it matters to the search
behind it. -/
def Passed (t : List Char) : Prop :=
  ∀ s, findFrom? none false (t ++ s)
    = (findFrom? none false s).map (Cut.behind t)

theorem Passed.append {t u : List Char} (ht : Passed t) (hu : Passed u) :
    Passed (t ++ u) := by
  intro s
  rw [List.append_assoc, ht, hu, Option.map_map, behind_behind]

theorem passed_nil : Passed [] := by
  intro s
  unfold Cut.behind
  simp

theorem passed_blanks {g : List Char} (hg : AllBlank g) : Passed g := by
  induction g with
  | nil => exact passed_nil
  | cons b g ih =>
      have hb : Passed [b] := fun s => findFrom?_blank_cons (hg b (by simp))
      exact hb.append (ih fun c hc => hg c (List.mem_cons_of_mem _ hc))

/-- Identifier characters and a blank are passed over. -/
theorem passed_word {w : List Char} (hw : ∀ c ∈ w, isWord c = true)
    (hb : isBlank b = true) : Passed (w ++ [b]) := by
  have hpass : ∀ before s, findFrom? before false (w ++ b :: s)
      = (findFrom? none false s).map (Cut.behind (w ++ [b])) := by
    intro before s
    induction w generalizing before with
    | nil => exact findFrom?_blank_cons hb
    | cons c w ih =>
        have hc : c ≠ '"' := ne_of_isWord (hw c (by simp)) (by decide)
        have hw' : ∀ c ∈ w, isWord c = true :=
          fun d hd => hw d (List.mem_cons_of_mem _ hd)
        have hnone : at? before (c :: (w ++ b :: s)) = none := by
          have hword : ['|', '-', '.'].any isWord = false := by decide +kernel
          have hblank : ['|', '-', '.'].any isBlank = false := by decide
          cases w with
          | nil =>
              exact at?_of_second fun hmem =>
                List.any_eq_false.mp hblank b hmem hb
          | cons d w =>
              exact at?_of_second fun hmem =>
                List.any_eq_false.mp hword d hmem (hw' d (by simp))
        rw [List.cons_append, findFrom?_cons hc hnone, ih hw', Option.map_map,
          behind_behind]
        rfl
  intro s
  rw [List.append_assoc]
  exact hpass none s

/-- Inside quotes nothing is an arrow. -/
theorem findFrom?_quoted_append {q : List Char} (hq : '"' ∉ q) :
    findFrom? before true (q ++ '"' :: s)
      = (findFrom? (some '"') false s).map (Cut.behind (q ++ ['"'])) := by
  induction q generalizing before with
  | nil => rfl
  | cons c q ih =>
      have hc : c ≠ '"' := fun heq => hq (heq ▸ List.mem_cons_self ..)
      have hq' : '"' ∉ q := fun hmem => hq (List.mem_cons_of_mem _ hmem)
      have hstep : findFrom? before true (c :: (q ++ '"' :: s))
          = (findFrom? (some c) true (q ++ '"' :: s)).map (Cut.behind [c]) := by
        have hquote : (c == '"') = false := beq_eq_false_iff_ne.mpr hc
        rw [findFrom?]
        simp [hquote]
        rfl
      rw [List.cons_append, hstep, ih hq', Option.map_map, behind_behind]
      rfl

/-- A quoted text and a blank are passed over. -/
theorem passed_quoted {q : List Char} (hq : '"' ∉ q) (hb : isBlank b = true) :
    Passed ('"' :: (q ++ ['"', b])) := by
  intro s
  have hopen : ∀ r, findFrom? none false ('"' :: r)
      = (findFrom? (some '"') true r).map (Cut.behind ['"']) := by
    intro r
    rw [findFrom?]
    rfl
  have hsplit : '"' :: (q ++ ['"', b]) ++ s = '"' :: (q ++ '"' :: b :: s) := by
    simp
  rw [hsplit, hopen, findFrom?_quoted_append hq, findFrom?_blank_cons hb,
    Option.map_map, Option.map_map, behind_behind, behind_behind]
  simp

-- =================================================== bare multiplicities

/-- A bare side of a range: a star or ASCII digits. -/
def AsciiSide (side : Option Numeral) : Prop :=
  ∀ n ∈ side, ∀ c ∈ n.digits, c.isDigit = true

/-- No arrow starts with a digit. -/
theorem findFrom?_digits_append {ds : List Char}
    (h : ∀ c ∈ ds, c.isDigit = true) :
    findFrom? before false (ds ++ s)
      = (findFrom? (ds.getLast?.or before) false s).map (Cut.behind ds) := by
  induction ds generalizing before with
  | nil =>
      unfold Cut.behind
      simp
  | cons c ds ih =>
      have hc : c ∉ ['<', '-', '.', '*', 'o'] := by
        intro hmem
        have hnone : ['<', '-', '.', '*', 'o'].any Char.isDigit = false := by
          decide
        exact List.any_eq_false.mp hnone c hmem (h c (by simp))
      have hquote : c ≠ '"' := by
        rintro rfl
        exact absurd (h '"' (by simp)) (by decide)
      have hlast : (c :: ds).getLast?.or before = ds.getLast?.or (some c) := by
        rw [List.getLast?_cons]
        cases ds.getLast? <;> rfl
      rw [List.cons_append, findFrom?_cons hquote (at?_of_first hc),
        ih fun d hd => h d (List.mem_cons_of_mem _ hd), Option.map_map,
        behind_behind, hlast]
      rfl

/-- A side of a range is passed over where no stroke follows, and ends in a
character of a multiplicity. -/
theorem findFrom?_side_append {side : Option Numeral} (h : AsciiSide side) :
    ∃ c, isCountChar c = true ∧ ∀ before s, s.head? ≠ some '-' →
      findFrom? before false (sideText side ++ s)
        = (findFrom? (some c) false s).map (Cut.behind (sideText side)) := by
  cases side with
  | none =>
      refine ⟨'*', by decide, fun before s hs => ?_⟩
      have hnone : at? before ('*' :: s) = none := by
        refine at?_eq_none fun a hprefix => ?_
        obtain ⟨r, hr⟩ := hprefix
        -- the only arrow with a star in front goes on with a stroke
        cases a <;> injection hr with hc hr
        case composesLeft => exact hs (by rw [← hr]; rfl)
        all_goals exact absurd hc (by decide)
      exact findFrom?_cons (by decide) hnone
  | some n =>
      have hdigits := h n rfl
      refine ⟨n.digits.getLast n.ne_nil, ?_, fun before s _ => ?_⟩
      · unfold isCountChar
        rw [hdigits _ (List.getLast_mem n.ne_nil)]
        rfl
      · exact (findFrom?_digits_append hdigits).trans
          (by rw [List.getLast?_eq_some_getLast n.ne_nil]; rfl)

/-- A bare side and a blank are passed over. -/
theorem passed_side {side : Option Numeral} (h : AsciiSide side)
    (hb : isBlank b = true) : Passed (sideText side ++ [b]) := by
  obtain ⟨c, -, hpass⟩ := findFrom?_side_append h
  intro s
  have hstroke : (b :: s).head? ≠ some '-' := by
    simpa using ne_of_isBlank hb (d := '-') (by decide)
  rw [List.append_assoc]
  show findFrom? none false (sideText side ++ b :: s) = _
  rw [hpass none _ hstroke, findFrom?_blank_cons hb, Option.map_map,
    behind_behind]

theorem exists_cons_sideText {side : Option Numeral} (h : AsciiSide side) :
    ∃ d ds, sideText side = d :: ds ∧ isCountChar d = true := by
  cases side with
  | none => exact ⟨'*', [], rfl, by decide⟩
  | some n =>
      obtain ⟨d, ds, hds, -⟩ := n.exists_cons
      refine ⟨d, ds, hds, ?_⟩
      unfold isCountChar
      rw [h n rfl d (by simp [hds])]
      rfl

/-- A bare range and a blank are passed over: its dots stand between
characters of a multiplicity. -/
theorem passed_range {low high : Option Numeral} (hlow : AsciiSide low)
    (hhigh : AsciiSide high) (hb : isBlank b = true) :
    Passed (sideText low ++ '.' :: '.' :: (sideText high ++ [b])) := by
  obtain ⟨c, hc, hpass⟩ := findFrom?_side_append hlow
  obtain ⟨c', -, hpass'⟩ := findFrom?_side_append hhigh
  obtain ⟨d, ds, hds, hd⟩ := exists_cons_sideText hhigh
  intro s
  have hstroke : (b :: s).head? ≠ some '-' := by
    simpa using ne_of_isBlank hb (d := '-') (by decide)
  have hfirst : at? (some c) ('.' :: '.' :: (sideText high ++ b :: s)) = none := by
    rw [hds]
    exact at?_range hc hd
  have hsecond : at? (some '.') ('.' :: (sideText high ++ b :: s)) = none := by
    rw [hds]
    refine at?_of_second fun hmem => ?_
    have hnone : ['|', '-', '.'].any isCountChar = false := by decide
    exact List.any_eq_false.mp hnone d hmem hd
  have hsplit : sideText low ++ '.' :: '.' :: (sideText high ++ [b]) ++ s
      = sideText low ++ '.' :: '.' :: (sideText high ++ b :: s) := by
    simp
  rw [hsplit, hpass none _ (by simp), findFrom?_cons (by decide) hfirst,
    findFrom?_cons (by decide) hsecond, hpass' _ _ hstroke,
    findFrom?_blank_cons hb]
  simp only [Option.map_map, behind_behind]
  congr 2

-- ================================================================ lines

/-- A line is cut at the arrow that stands behind a passed text. -/
theorem find?_append_text {t : List Char} (ht : Passed t) (a : Arrow)
    (hb : isBlank b = true) (s : List Char) :
    find? (t ++ (a.text.toList ++ b :: s)) = some ⟨t, a, b :: s⟩ := by
  have hstands := at?_text a hb s
  have hdrop : (a.text.toList ++ b :: s).drop a.text.length = b :: s := by
    rw [← String.length_toList, List.drop_left]
  have hat : findFrom? none false (a.text.toList ++ b :: s)
      = some ⟨[], a, b :: s⟩ := by
    cases htext : a.text.toList ++ b :: s with
    | nil => simp at htext
    | cons c r =>
        have hc : c ≠ '"' := by
          cases a <;> (injection htext with hc; rw [← hc]; decide)
        rw [htext] at hstands hdrop
        rw [findFrom?]
        simp [hc, hstands, hdrop]
  unfold find?
  rw [ht, hat]
  unfold Cut.behind
  simp

end Arrow

end ApiScaffold
