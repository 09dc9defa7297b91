/-
Which arrow a line is cut at. At a place of the line an arrow can be taken
(`Acceptable`) if no quote is open there, the arrow is spelled there, two
dots are not those of a range and an `o` touches no identifier. Among all
arrows and places that can be taken the search gives the first place and the
longest arrow there (`FirstLongest`), and no arrow where none can be.

The search is followed character by character: what it knows of the text
that it has passed is its last character and whether a quote is open, and
that is what being acceptable asks of it (`acceptable_append_iff`). At one
place the table of arrows decides, which lists longer arrows first
(`at?_eq_some_iff`).
-/
import ApiScaffold.Proofs.Diagram.CountLimit
import ApiScaffold.Proofs.Text.Lines

namespace ApiScaffold

namespace Arrow

-- =================================================== statement vocabulary

/-- A character of a bare multiplicity: an ASCII digit or a star. -/
def IsCount (c : Char) : Prop := c.isDigit = true ∨ c = '*'

/-- An arrow can be taken at a place of a line. -/
structure Acceptable (s : List Char) (a : Arrow) (i : Nat) : Prop where
  unquoted : Even ((s.take i).count '"')
  spelled : a.text.toList <+: s.drop i
  no_range : a = dotted →
    ¬ ((∃ c ∈ (s.take i).getLast?, IsCount c) ∧ ∃ c ∈ s[i + 2]?, IsCount c)
  free_before : a.text.toList.head? = some 'o' →
    ∀ c ∈ (s.take i).getLast?, isWord c = false
  free_after : a.text.toList.getLast? = some 'o' →
    ∀ c ∈ s[i + a.text.length]?, isWord c = false

/-- No arrow can be taken at an earlier place, and no longer one at the
same place. -/
structure FirstLongest (line : List Char) (a : Arrow) (i : Nat) : Prop where
  acceptable : Acceptable line a i
  first : ∀ b j, Acceptable line b j → i ≤ j
  longest : ∀ b, Acceptable line b i → b.text.length ≤ a.text.length

-- ============================================================== one place

variable {line pre s : List Char} {a b : Arrow} {before : Option Char}

theorem mem_all (a : Arrow) : a ∈ all := by
  cases a <;> decide

theorem text_injective : Function.Injective text := by
  intro a b h
  cases a <;> cases b <;> first | rfl | exact absurd h (by decide)

/-- Two arrows of one length cannot stand at one place. -/
theorem eq_of_spelled (ha : a.text.toList <+: s) (hb : b.text.toList <+: s)
    (h : a.text.length = b.text.length) : a = b := by
  have hlength : a.text.toList.length = b.text.toList.length := by
    rw [String.length_toList, String.length_toList, h]
  have htext := (List.prefix_of_prefix_length_le ha hb
    (Nat.le_of_eq hlength)).eq_of_length hlength
  exact text_injective (String.toList_inj.mp htext)

theorem any_isCountChar (o : Option Char) :
    o.any isCountChar = true ↔ ∃ c ∈ o, IsCount c := by
  cases o <;> simp [isCountChar, IsCount]

theorem continuesWord_eq_false_iff (o : Option Char) :
    continuesWord o = false ↔ ∀ c ∈ o, isWord c = false := by
  cases o <;> simp [continuesWord]

/-- An arrow stands behind a text where no quote is open exactly if it can
be taken there. -/
theorem acceptable_append_iff : Acceptable (pre ++ s) a pre.length
    ↔ Even (pre.count '"') ∧ stands pre.getLast? s a = true := by
  have htake : (pre ++ s).take pre.length = pre := List.take_left
  have hdrop : (pre ++ s).drop pre.length = s := List.drop_left
  have hafter : ∀ n, (pre ++ s)[pre.length + n]? = (s.drop n).head? := by
    intro n
    rw [List.getElem?_append_right (Nat.le_add_right _ _), Nat.add_sub_cancel_left,
      List.head?_drop]
  have hmarks : a.isRejected pre.getLast? (s.drop a.text.length).head? = false ↔
      (a = dotted → ¬ ((∃ c ∈ pre.getLast?, IsCount c)
        ∧ ∃ c ∈ (s.drop 2).head?, IsCount c))
      ∧ (a.text.toList.head? = some 'o' → ∀ c ∈ pre.getLast?, isWord c = false)
      ∧ (a.text.toList.getLast? = some 'o' →
        ∀ c ∈ (s.drop a.text.length).head?, isWord c = false) := by
    rw [← any_isCountChar, ← any_isCountChar, ← continuesWord_eq_false_iff,
      ← continuesWord_eq_false_iff]
    have hdots : "..".length = 2 := rfl
    cases a <;> simp [isRejected, text, hdots]
  unfold stands
  rw [Bool.and_eq_true, Bool.not_eq_true', List.isPrefixOf_iff_prefix, hmarks]
  constructor
  · intro h
    refine ⟨htake ▸ h.unquoted, hdrop ▸ h.spelled, ?_, ?_, ?_⟩
    · simpa only [htake, hafter] using h.no_range
    · simpa only [htake] using h.free_before
    · simpa only [hafter] using h.free_after
  · rintro ⟨hquotes, hspelled, hrange, hbefore, hafter'⟩
    refine ⟨htake.symm ▸ hquotes, hdrop.symm ▸ hspelled, ?_, ?_, ?_⟩
    · simpa only [htake, hafter] using hrange
    · simpa only [htake] using hbefore
    · simpa only [hafter] using hafter'

theorem at?_eq_none_iff : at? before s = none ↔ ∀ a, stands before s a = false := by
  unfold at?
  rw [List.find?_eq_none]
  constructor
  · exact fun h a => Bool.eq_false_iff.mpr (h a (mem_all a))
  · exact fun h a _ => Bool.eq_false_iff.mp (h a)

/-- The arrow of a place is the longest that stands there. -/
theorem stands_of_at? (h : at? before s = some a) : stands before s a = true
    ∧ ∀ b, stands before s b = true → b.text.length ≤ a.text.length := by
  have hsorted : all.Pairwise fun a b => b.text.length ≤ a.text.length := by decide
  unfold at? at h
  obtain ⟨ha, front, rest, hall, hfront⟩ := List.find?_eq_some_iff_append.mp h
  refine ⟨ha, fun b hb => ?_⟩
  have hmem : b ∈ front ++ a :: rest := hall ▸ mem_all b
  rw [hall, List.pairwise_append, List.pairwise_cons] at hsorted
  rcases List.mem_append.mp hmem with hmem | hmem
  · have hnot := hfront b hmem
    rw [hb] at hnot
    cases hnot
  · rcases List.mem_cons.mp hmem with rfl | hmem
    · exact Nat.le_refl _
    · exact hsorted.2.1.1 b hmem

-- ============================================================= the search

/-- What a search says about the places from `n` on: that nothing can be
taken, or what can be taken first. -/
def Answers (line : List Char) (n : Nat) (s : List Char) : Option Cut → Prop
  | none => ∀ b j, n ≤ j → ¬ Acceptable line b j
  | some cut => s = cut.left ++ (cut.arrow.text.toList ++ cut.right)
      ∧ Acceptable line cut.arrow (n + cut.left.length)
      ∧ (∀ b j, n ≤ j → Acceptable line b j → n + cut.left.length ≤ j)
      ∧ ∀ b, Acceptable line b (n + cut.left.length) →
          b.text.length ≤ cut.arrow.text.length

/-- Where nothing can be taken at a place, the answer is that of the places
behind it. -/
theorem Answers.cons {n : Nat} {c : Char} {o : Option Cut}
    (hnone : ∀ b, ¬ Acceptable line b n) (h : Answers line (n + 1) s o) :
    Answers line n (c :: s) (o.map fun cut => { cut with left := c :: cut.left }) := by
  have hlater : ∀ b j, n ≤ j → Acceptable line b j → n + 1 ≤ j := by
    intro b j hj hb
    rcases Nat.eq_or_lt_of_le hj with rfl | hj
    · exact absurd hb (hnone b)
    · exact hj
  cases o with
  | none => exact fun b j hj hb => h b j (hlater b j hj hb) hb
  | some cut =>
      obtain ⟨hs, hat, hfirst, hlongest⟩ := h
      have hplace : n + (c :: cut.left).length = n + 1 + cut.left.length := by
        rw [List.length_cons]
        omega
      refine ⟨by rw [hs]; rfl, ?_, fun b j hj hb => ?_, ?_⟩
      · simpa only [hplace] using hat
      · simpa only [hplace] using hfirst b j (hlater b j hj hb) hb
      · simpa only [hplace] using hlongest

/-- The search behind a text gives the first place and the longest arrow
there. -/
theorem answers_findFrom? (pre s : List Char) :
    Answers (pre ++ s) pre.length s
      (findFrom? pre.getLast? (decide (¬ Even (pre.count '"'))) s) := by
  induction s generalizing pre with
  | nil =>
      intro b j hj hb
      have hspelled := hb.spelled
      rw [List.append_nil, List.drop_eq_nil_of_le hj, List.prefix_nil] at hspelled
      revert hspelled
      cases b <;> decide
  | cons c s ih =>
      have hnext := ih (pre ++ [c])
      rw [List.append_assoc, List.singleton_append, List.getLast?_concat,
        List.length_append, List.length_singleton, decide_odd_count_concat] at hnext
      rw [findFrom?]
      by_cases hskip : ¬ Even (pre.count '"') ∨ c = '"'
      · -- between quotes, and at a quote, there is no arrow
        have hnone : ∀ b, ¬ Acceptable (pre ++ c :: s) b pre.length := by
          intro b hb
          obtain ⟨heven, hstands⟩ := acceptable_append_iff.mp hb
          rcases hskip with hodd | rfl
          · exact hodd heven
          · unfold stands at hstands
            cases b <;> simp [text] at hstands
        rw [if_pos (by simpa using hskip)]
        exact hnext.cons hnone
      · obtain ⟨heven, hc⟩ := not_or.mp hskip
        rw [not_not] at heven
        rw [if_neg (by simp [heven, hc])]
        have hat : ∀ b, Acceptable (pre ++ c :: s) b pre.length
            ↔ stands pre.getLast? (c :: s) b = true :=
          fun b => acceptable_append_iff.trans (and_iff_right heven)
        cases hfind : at? pre.getLast? (c :: s) with
        | none =>
            refine hnext.cons fun b hb => ?_
            have hstands := (hat b).mp hb
            rw [at?_eq_none_iff.mp hfind b] at hstands
            cases hstands
        | some a =>
            obtain ⟨hstands, hlongest⟩ := stands_of_at? hfind
            refine ⟨?_, (hat a).mpr hstands, fun b j hj _ => hj,
              fun b hb => hlongest b ((hat b).mp hb)⟩
            have hprefix := ((hat a).mpr hstands).spelled
            rw [List.drop_left, List.prefix_iff_eq_append,
              String.length_toList] at hprefix
            exact hprefix.symm

/-- At the first place the longest arrow is the only one. -/
theorem FirstLongest.unique {i j : Nat} (ha : FirstLongest line a i)
    (hb : FirstLongest line b j) : a = b ∧ i = j := by
  obtain rfl : i = j :=
    Nat.le_antisymm (ha.first b j hb.acceptable) (hb.first a i ha.acceptable)
  exact ⟨eq_of_spelled ha.acceptable.spelled hb.acceptable.spelled
    (Nat.le_antisymm (hb.longest a ha.acceptable) (ha.longest b hb.acceptable)), rfl⟩

/-- The search through a line finds nothing exactly if no arrow can be taken
anywhere. -/
theorem find?_eq_none_iff : find? line = none ↔ ∀ b j, ¬ Acceptable line b j := by
  have hanswer : Answers line 0 line (find? line) := answers_findFrom? [] line
  constructor
  · intro h b j
    rw [h] at hanswer
    exact hanswer b j (Nat.zero_le j)
  · intro h
    cases hfind : find? line with
    | none => rfl
    | some cut =>
        rw [hfind] at hanswer
        exact absurd hanswer.2.1 (h _ _)

/-- What the search finds is the longest arrow of the first place where one
can be taken. -/
theorem firstLongest_of_find? {cut : Cut} (h : find? line = some cut) :
    FirstLongest line cut.arrow cut.left.length
      ∧ line = cut.left ++ (cut.arrow.text.toList ++ cut.right) := by
  have hanswer : Answers line 0 line (find? line) := answers_findFrom? [] line
  rw [h] at hanswer
  obtain ⟨hline, hat, hfirst, hlongest⟩ := hanswer
  simp only [Nat.zero_add] at hat hfirst hlongest
  exact ⟨⟨hat, fun b j hb => hfirst b j (Nat.zero_le j) hb, hlongest⟩, hline⟩

/-- A line is cut at the longest arrow of the first place where one can be
taken. -/
theorem find?_eq_some_iff {cut : Cut} : find? line = some cut
    ↔ FirstLongest line cut.arrow cut.left.length
      ∧ line = cut.left ++ (cut.arrow.text.toList ++ cut.right) := by
  refine ⟨firstLongest_of_find?, ?_⟩
  rintro ⟨hcut, hline⟩
  cases hfind : find? line with
  | none => exact absurd hcut.acceptable (find?_eq_none_iff.mp hfind _ _)
  | some found =>
      obtain ⟨hfound, hline'⟩ := firstLongest_of_find? hfind
      obtain ⟨harrow, hlength⟩ := hfound.unique hcut
      obtain ⟨left, arrow, right⟩ := found
      obtain ⟨left', arrow', right'⟩ := cut
      obtain rfl : arrow = arrow' := harrow
      obtain ⟨rfl, hrest⟩ := List.append_inj (hline'.symm.trans hline) hlength
      obtain rfl := List.append_cancel_left hrest
      rfl

end Arrow

-- ================================================================ relations

theorem RelationKind.ofSymbol_text (a : Arrow) :
    RelationKind.ofSymbol a.text ≠ .unknown := by
  cases a <;> decide

theorem Relation.gives_kind (line : List Char) :
    Gives (Relation.ofLine? line) fun o => ∀ r ∈ o, r.kind ≠ .unknown := by
  refine Relation.gives_ofLine?_of_ends fun source arrow target _ r hr => ?_
  obtain ⟨-, -, -, -, -, hkind⟩ := Relation.of_ofEnds_eq_ok hr
  rw [hkind]
  exact RelationKind.ofSymbol_text arrow

/-- A line without an arrow that can be taken is cut nowhere, and any other
one at the longest arrow of the first place, which are unique; so no line has
a relation of unknown kind. -/
theorem line_cut_at_first_longest (line : List Char) :
    (Arrow.find? line = none ↔ ∀ a i, ¬ Arrow.Acceptable line a i)
      ∧ (∀ cut, Arrow.find? line = some cut
        ↔ Arrow.FirstLongest line cut.arrow cut.left.length
          ∧ line = cut.left ++ (cut.arrow.text.toList ++ cut.right))
      ∧ ((∃ a i, Arrow.Acceptable line a i)
        ↔ ∃! place : Arrow × Nat, Arrow.FirstLongest line place.1 place.2)
      ∧ ∀ r, Relation.ofLine? line = .ok (some r) → r.kind ≠ .unknown := by
  refine ⟨Arrow.find?_eq_none_iff, fun cut => Arrow.find?_eq_some_iff, ?_,
    fun r hr => Relation.gives_kind line _ hr r rfl⟩
  constructor
  · rintro ⟨a, i, h⟩
    cases hfind : Arrow.find? line with
    | none => exact absurd h (Arrow.find?_eq_none_iff.mp hfind a i)
    | some cut =>
        have hcut := (Arrow.firstLongest_of_find? hfind).1
        refine ⟨(cut.arrow, cut.left.length), hcut, fun place hplace => ?_⟩
        obtain ⟨harrow, hlength⟩ := hplace.unique hcut
        exact Prod.ext harrow hlength
  · rintro ⟨place, hplace, -⟩
    exact ⟨place.1, place.2, hplace.acceptable⟩

/-- Behind dots of a range and the `o` of a name, an arrow that could be
longer but for the identifier it would touch. -/
theorem line_cut_at_first_longest_of_attached :
    let line := "Zoo 1..2 \"--\" --on".toList
    let cut : Arrow.Cut := ⟨"Zoo 1..2 \"--\" ".toList, .solid, "on".toList⟩
    Arrow.find? line = some cut ∧ Arrow.FirstLongest line .solid 14 := by
  intro line cut
  have hfind : Arrow.find? line = some cut := by decide +kernel
  exact ⟨hfind, (((line_cut_at_first_longest line).2.1 cut).mp hfind).1⟩

end ApiScaffold
