/-
The one way in which a text cannot be read. Blocks, members and labels
are left out where they make no sense, and never fail; what fails is the
number that a relation captures when it has more digits than the limit.

`FailsAs x P` says of a reading that it fails with a number of digits
exactly where `P` holds of that number. Readings that are made one after
another fail as the first of them that does (`FailsAs.andThen`), and that
is the whole argument three times over: the two ends of a line, the lines
of a text, and the document after the diagram. What is left is to say when
a line relates two ends (`RelationLine.ofLine_eq_between`) and when the
token of an end fails, which `CountToken` answers.
-/
import ApiScaffold.Api.Document
import ApiScaffold.Proofs.Diagram.CountToken
import ApiScaffold.Proofs.Text.Lines

namespace ApiScaffold

-- ==================================================== failing readings

/-- A reading fails with as many digits as `P` says. -/
def FailsAs {α : Type} (x : Except NumeralTooLong α) (P : Nat → Prop) : Prop :=
  ∀ e, x = .error e ↔ P e.digits

namespace FailsAs

variable {α β : Type} {x : Except NumeralTooLong α} {P Q : Nat → Prop}

/-- What is read fails as nothing. -/
theorem ok (a : α) : FailsAs (.ok a) fun _ => False :=
  fun _ => ⟨(nomatch ·), False.elim⟩

theorem congr (h : FailsAs x P) (hPQ : ∀ n, P n ↔ Q n) : FailsAs x Q :=
  fun e => (h e).trans (hPQ e.digits)

/-- What is made of a reading fails as the reading does. -/
theorem map (h : FailsAs x P) (f : α → β) : FailsAs (x.map f) P := by
  intro e
  rw [← h e]
  cases x with
  | error e' => simp [Except.map]
  | ok a => simp [Except.map]

/-- A reading that succeeds fails as nothing. -/
theorem not_of_ok {a : α} (h : FailsAs (.ok a) P) (n : Nat) : ¬ P n := by
  intro hn
  have herror := (h ⟨n⟩).mpr hn
  cases herror

/-- Of two readings the second counts where the first succeeds. -/
theorem andThen {f : α → Except NumeralTooLong β} (hx : FailsAs x P)
    (hf : ∀ a, FailsAs (f a) Q) :
    FailsAs (x >>= f) fun n => P n ∨ (∀ m, ¬ P m) ∧ Q n := by
  intro e
  cases x with
  | error e' =>
      have he' : P e'.digits := (hx e').mp rfl
      change Except.error e' = Except.error e ↔ _
      constructor
      · intro h
        injection h with h
        exact Or.inl (h ▸ he')
      · rintro (h | ⟨h, -⟩)
        · have heq := (hx e).mpr h
          injection heq with heq
          rw [heq]
        · exact absurd he' (h _)
  | ok a =>
      change f a = _ ↔ _
      rw [hf a e]
      constructor
      · exact fun h => Or.inr ⟨hx.not_of_ok, h⟩
      · rintro (h | ⟨-, h⟩)
        · exact absurd h (hx.not_of_ok _)
        · exact h

end FailsAs

-- ================================================================= ends

/-- The first numeral beyond the limit in a token that counts has `n`
digits. -/
def TokenOverflows (token : List Char) (n : Nat) : Prop :=
  ∃ (t : CountToken) (m : Numeral), token = t.text
    ∧ t.numerals.find? Numeral.isTooLong = some m ∧ n = m.digits.length

/-- That is so for the token that an end captures, without the blanks
around it. -/
def RelationEnd.Overflows (e : RelationEnd) (n : Nat) : Prop :=
  ∃ raw, e.cardinality = some raw ∧ TokenOverflows (trim raw) n

/-- Reading a multiplicity fails exactly with the first numeral beyond the limit. -/
theorem Cardinality.failsAs_ofText (raw : List Char) :
    FailsAs (Cardinality.ofText raw) (TokenOverflows (trim raw)) := by
  unfold Cardinality.ofText
  split
  next hblank =>
    refine (FailsAs.ok none).congr fun n => ⟨False.elim, ?_⟩
    rintro ⟨t, m, htext, -⟩
    exact t.text_ne_nil (htext ▸ hblank)
  next hne =>
    have hread : FailsAs (Cardinality.ofToken (trim raw))
        (TokenOverflows (trim raw)) :=
      fun _ => CountToken.ofToken_eq_error_iff hne
    exact hread.map some

/-- An end of a relation fails as its multiplicity does. -/
theorem RelationEnd.failsAs_cardinality (e : RelationEnd) :
    FailsAs (Cardinality.ofText? e.cardinality) e.Overflows := by
  unfold RelationEnd.Overflows
  cases e.cardinality with
  | none => exact (FailsAs.ok none).congr fun n => by simp
  | some raw => exact (Cardinality.failsAs_ofText raw).congr fun n => by simp

-- ================================================================ lines

/-- A line relates two ends: it is no comment, there is an arrow outside
quotes, and on each side of it stands a name. -/
def Relates (line : List Char) (source : RelationEnd) (arrow : Arrow)
    (target : RelationEnd) : Prop :=
  (trim line).head? ≠ some '\''
    ∧ ∃ cut, Arrow.find? (trim line) = some cut ∧ cut.arrow = arrow
      ∧ RelationEnd.ofText? (trim cut.left) = some source
      ∧ RelationEnd.ofText? (trim (beforeLabel false cut.right)) = some target

/-- An empty text is no end. -/
theorem RelationEnd.ne_nil_of_ofText? {s : List Char} {e : RelationEnd}
    (h : RelationEnd.ofText? s = some e) : s.isEmpty = false := by
  cases s with
  | nil =>
      unfold RelationEnd.ofText? endTokens at h
      cases h
  | cons c s => rfl

/-- A line is read as a relation between two ends exactly if it relates them. -/
theorem RelationLine.ofLine_eq_between {line : List Char}
    {source target : RelationEnd} {arrow : Arrow} :
    RelationLine.ofLine line = .between source arrow target
      ↔ Relates line source arrow target := by
  unfold RelationLine.ofLine Relates
  simp only
  constructor
  · intro h
    split at h
    next => cases h
    next hskip =>
      simp only [Bool.or_eq_true, not_or, beq_iff_eq] at hskip
      split at h
      next => cases h
      next cut hcut =>
        split at h
        next => cases h
        next =>
          split at h
          next hleft hright =>
            injection h with hsource harrow htarget
            subst hsource harrow htarget
            exact ⟨hskip.2, cut, hcut, rfl, hleft, hright⟩
          next => cases h
  · rintro ⟨hcomment, cut, hcut, rfl, hleft, hright⟩
    have hline : (trim line).isEmpty = false := by
      cases hnil : trim line with
      | nil => rw [hnil] at hcut; cases hcut
      | cons c s => rfl
    rw [hline, beq_eq_false_iff_ne.mpr hcomment, hcut]
    simp only [Bool.or_false, Bool.false_eq_true, if_false]
    -- the tests for empty sides leave out nothing that has names
    rw [RelationEnd.ne_nil_of_ofText? hleft,
      RelationEnd.ne_nil_of_ofText? hright, hleft, hright]
    rfl

/-- The first number beyond the limit that a line captures has `n` digits:
that of its source, or else that of its target. -/
def LineOverflows (line : List Char) (n : Nat) : Prop :=
  ∃ source arrow target, Relates line source arrow target
    ∧ (source.Overflows n
      ∨ (∀ m, ¬ source.Overflows m) ∧ target.Overflows n)

/-- A relation fails as its left end does, and else as its right end. -/
theorem Relation.failsAs_ofEnds (source target : RelationEnd) (arrow : Arrow) :
    FailsAs (Relation.ofEnds source arrow target) fun n =>
      source.Overflows n
        ∨ (∀ m, ¬ source.Overflows m) ∧ target.Overflows n := by
  refine source.failsAs_cardinality.andThen fun low => ?_
  exact target.failsAs_cardinality.map _

/-- A line fails exactly with its first numeral beyond the limit. -/
theorem Relation.failsAs_ofLine? (line : List Char) :
    FailsAs (Relation.ofLine? line) (LineOverflows line) := by
  unfold LineOverflows
  simp only [← RelationLine.ofLine_eq_between]
  unfold Relation.ofLine?
  cases hline : RelationLine.ofLine line with
  | absent => exact (FailsAs.ok none).congr fun n => by simp
  | nameless => exact (FailsAs.ok none).congr fun n => by simp
  | between source arrow target =>
      -- a line relates one pair of ends only
      refine ((Relation.failsAs_ofEnds source target arrow).map some).congr
        fun n => ⟨fun h => ⟨source, arrow, target, rfl, h⟩, ?_⟩
      rintro ⟨source', arrow', target', heq, h⟩
      injection heq with hsource _ htarget
      rwa [hsource, htarget]

-- ================================================================ texts

/-- The first number beyond the limit that lines capture has `n` digits. -/
def FirstOverflow (ls : List (List Char)) (n : Nat) : Prop :=
  ∃ before line after, ls = before ++ line :: after
    ∧ (∀ l ∈ before, ∀ m, ¬ LineOverflows l m) ∧ LineOverflows line n

/-- The first line with an overflow decides. -/
theorem firstOverflow_cons {line : List Char} {ls : List (List Char)}
    {n : Nat} :
    FirstOverflow (line :: ls) n
      ↔ LineOverflows line n
        ∨ (∀ m, ¬ LineOverflows line m) ∧ FirstOverflow ls n := by
  constructor
  · rintro ⟨before, l, after, heq, hbefore, hl⟩
    cases before with
    | nil =>
        injection heq with hline
        exact Or.inl (hline ▸ hl)
    | cons first before =>
        injection heq with hline hls
        refine Or.inr ⟨hline ▸ hbefore first (List.mem_cons_self ..), ?_⟩
        exact ⟨before, l, after, hls,
          fun k hk => hbefore k (List.mem_cons_of_mem _ hk), hl⟩
  · rintro (h | ⟨hline, before, l, after, rfl, hbefore, hl⟩)
    · exact ⟨[], line, ls, rfl, fun l hl => (by cases hl), h⟩
    · refine ⟨line :: before, l, after, rfl, fun k hk => ?_, hl⟩
      rcases List.mem_cons.mp hk with rfl | hk
      · exact hline
      · exact hbefore k hk

/-- Lines fail exactly with the first overflow among them. -/
theorem failsAs_relationsOfLines (ls : List (List Char)) :
    FailsAs (relationsOfLines ls) (FirstOverflow ls) := by
  induction ls with
  | nil =>
      refine (FailsAs.ok []).congr fun n => ⟨False.elim, ?_⟩
      rintro ⟨before, line, after, heq, -⟩
      exact absurd heq (by simp)
  | cons line ls ih =>
      refine FailsAs.congr ?_ fun n => firstOverflow_cons.symm
      exact (Relation.failsAs_ofLine? line).andThen fun r => ih.map _

/-- A text fails exactly with the first overflow on its lines. -/
theorem Diagram.failsAs_parse (text : String) :
    FailsAs (Diagram.parse text)
      (FirstOverflow (lines (normalize text.toList))) :=
  (failsAs_relationsOfLines _).map _

/-- Some number is beyond the limit exactly when there is a first one. -/
theorem exists_firstOverflow_iff {ls : List (List Char)} :
    (∃ n, FirstOverflow ls n) ↔ ∃ line ∈ ls, ∃ n, LineOverflows line n := by
  induction ls with
  | nil =>
      constructor
      · rintro ⟨n, before, line, after, heq, -⟩
        exact absurd heq (by simp)
      · rintro ⟨line, hline, -⟩
        cases hline
  | cons line ls ih =>
      simp only [firstOverflow_cons, List.mem_cons, exists_eq_or_imp, ← ih]
      by_cases h : ∃ n, LineOverflows line n
      · obtain ⟨n, hn⟩ := h
        exact ⟨fun _ => Or.inl ⟨n, hn⟩, fun _ => ⟨n, Or.inl hn⟩⟩
      · have hnone : ∀ m, ¬ LineOverflows line m := not_exists.mp h
        simp [hnone]

/-- A token overflows when any of its numerals is beyond the limit. -/
theorem exists_tokenOverflows_iff {token : List Char} :
    (∃ n, TokenOverflows token n)
      ↔ ∃ t : CountToken, token = t.text
        ∧ ∃ m ∈ t.numerals, numeralLimit < m.digits.length := by
  constructor
  · rintro ⟨n, t, m, htext, hfind, -⟩
    have hlong := List.find?_some hfind
    unfold Numeral.isTooLong at hlong
    exact ⟨t, htext, m, List.mem_of_find?_eq_some hfind, by simpa using hlong⟩
  · rintro ⟨t, htext, m, hm, hlong⟩
    have hsome : (t.numerals.find? Numeral.isTooLong).isSome := by
      rw [List.find?_isSome]
      exact ⟨m, hm, by simpa [Numeral.isTooLong] using hlong⟩
    obtain ⟨first, hfirst⟩ := Option.isSome_iff_exists.mp hsome
    exact ⟨_, t, first, htext, hfirst, rfl⟩

/-- A line overflows when either of its ends does. -/
theorem exists_lineOverflows_iff {line : List Char} :
    (∃ n, LineOverflows line n)
      ↔ ∃ source arrow target, Relates line source arrow target
        ∧ ∃ raw, (source.cardinality = some raw ∨ target.cardinality = some raw)
          ∧ ∃ n, TokenOverflows (trim raw) n := by
  constructor
  · rintro ⟨n, source, arrow, target, hline, ⟨raw, hraw, h⟩ | ⟨-, raw, hraw, h⟩⟩
    · exact ⟨source, arrow, target, hline, raw, Or.inl hraw, n, h⟩
    · exact ⟨source, arrow, target, hline, raw, Or.inr hraw, n, h⟩
  · rintro ⟨source, arrow, target, hline, raw, hraw, n, h⟩
    by_cases hsource : ∃ m, source.Overflows m
    · -- the source comes first, whichever of the two overflows
      obtain ⟨m, hm⟩ := hsource
      exact ⟨m, source, arrow, target, hline, Or.inl hm⟩
    · have hnone : ∀ m, ¬ source.Overflows m := not_exists.mp hsource
      rcases hraw with hraw | hraw
      · exact absurd ⟨raw, hraw, h⟩ (hnone n)
      · exact ⟨n, source, arrow, target, hline, Or.inr ⟨hnone, raw, hraw, h⟩⟩

/-- Reading a text fails exactly when a line that relates two ends captures
a token with a numeral beyond the limit; it fails with the digits of the
first such numeral, in the order of lines, the source before the target
and the lower side of a range before the upper one; and a document is made
of a text unless, and fails as, the text cannot be read. -/
theorem parse_fails_at_first_overflow :
    (∀ text, (∃ e, Diagram.parse text = .error e)
      ↔ ∃ line ∈ lines (normalize text.toList), ∃ source arrow target,
        Relates line source arrow target
          ∧ ∃ raw,
            (source.cardinality = some raw ∨ target.cardinality = some raw)
            ∧ ∃ t : CountToken, trim raw = t.text
              ∧ ∃ m ∈ t.numerals, numeralLimit < m.digits.length)
    ∧ (∀ text e, Diagram.parse text = .error e
      ↔ FirstOverflow (lines (normalize text.toList)) e.digits)
    ∧ ∀ info text e,
      Document.ofText info text = .error e ↔ Diagram.parse text = .error e := by
  refine ⟨fun text => ?_, Diagram.failsAs_parse, fun info text e => ?_⟩
  · calc (∃ e, Diagram.parse text = .error e)
        ↔ ∃ n, FirstOverflow (lines (normalize text.toList)) n :=
          ⟨fun ⟨e, he⟩ => ⟨_, (Diagram.failsAs_parse text e).mp he⟩,
            fun ⟨n, hn⟩ => ⟨⟨n⟩, (Diagram.failsAs_parse text ⟨n⟩).mpr hn⟩⟩
      _ ↔ _ := by
          simp only [exists_firstOverflow_iff, exists_lineOverflows_iff,
            exists_tokenOverflows_iff]
  · exact ((Diagram.failsAs_parse text).map _ e).trans
      (Diagram.failsAs_parse text e).symm

end ApiScaffold
