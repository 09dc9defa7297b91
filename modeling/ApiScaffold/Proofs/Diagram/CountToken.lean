/-
Multiplicity tokens that count: a star, a numeral, and a range between
two sides, each of them a star or a numeral. `CountToken` is such a token
as data, with the text it is written as, its numerals in the order in
which they stand, and the counts it allows.

Reading agrees with that in both directions. The text of a token reads as
the token, or fails at the first of its numerals beyond the limit
(`ofToken_text`); and a text that fails to be read is that of a token
(`ofToken_eq_error_iff`), so labels never fail. Where a side of a range ends
is decided by the characters alone: no decimal digit is a star or a dot.
-/
import ApiScaffold.Diagram.Cardinality
import ApiScaffold.Proofs.Text.Lines
import Mathlib.Data.List.Induction
import Mathlib.Data.Nat.Digits.Defs
import Mathlib.Data.Set.Basic

namespace ApiScaffold

-- ============================================================= numerals

/-- A run of decimal digits of any script. -/
structure Numeral where
  digits : List Char
  ne_nil : digits ≠ []
  decimal : ∀ c ∈ digits, isDecimal c = true

namespace Numeral

/-- The number that the digits denote, the last of them the lowest. -/
def value (n : Numeral) : Nat :=
  Nat.ofDigits 10 (n.digits.reverse.filterMap digitValue?)

/-- Whether there are more digits than can be read. -/
def isTooLong (n : Numeral) : Bool := numeralLimit < n.digits.length

end Numeral

/-- Reading digits from the first to the last gives their positional
value. -/
theorem numeralValue_eq_ofDigits {ds : List Char}
    (h : ∀ c ∈ ds, isDecimal c = true) :
    numeralValue ds = Nat.ofDigits 10 (ds.reverse.filterMap digitValue?) := by
  -- reading takes the last digit last, so digits are taken off at the end
  induction ds using List.reverseRecOn with
  | nil => rfl
  | append_singleton ds c ih =>
      have hc : isDecimal c = true := h c (by simp)
      obtain ⟨v, hv⟩ := Option.isSome_iff_exists.mp hc
      have hds := ih fun d hd => h d (List.mem_append_left _ hd)
      unfold numeralValue at hds ⊢
      rw [List.foldl_append, List.foldl_cons, List.foldl_nil, hds, hv,
        List.reverse_append, List.reverse_singleton, List.singleton_append,
        List.filterMap_cons_some hv, Nat.ofDigits_cons]
      exact Nat.add_comm _ _

theorem readNumeral_digits (n : Numeral) :
    readNumeral n.digits
      = if n.isTooLong then .error ⟨n.digits.length⟩ else .ok n.value := by
  unfold readNumeral Numeral.isTooLong Numeral.value
  simp only [decide_eq_true_eq]
  rw [numeralValue_eq_ofDigits n.decimal]

-- ================================================================ sides

/-- One side of a range as it is written; a star where there is no
numeral. -/
def sideText : Option Numeral → List Char
  | none => ['*']
  | some n => n.digits

/-- One side of a range as it is read. -/
def Bound.ofSide : Option Numeral → Bound
  | none => .unbounded
  | some n => .digits n.digits

theorem Bound.value_ofSide (side : Option Numeral) :
    (Bound.ofSide side).value
      = match side.toList.find? Numeral.isTooLong with
        | some n => .error ⟨n.digits.length⟩
        | none => .ok (side.map fun n => (n.value : Int)) := by
  cases side with
  | none => rfl
  | some n =>
      unfold Bound.ofSide Bound.value
      simp only
      rw [readNumeral_digits, Option.toList_some, List.find?_singleton]
      split <;> rfl

/-- A numeral does not start with a star. -/
theorem Numeral.exists_cons (n : Numeral) :
    ∃ d ds, n.digits = d :: ds ∧ d ≠ '*' := by
  obtain ⟨d, ds, hds⟩ := List.exists_cons_of_ne_nil n.ne_nil
  refine ⟨d, ds, hds, fun hd => ?_⟩
  have hstar := n.decimal d (by simp [hds])
  rw [hd] at hstar
  exact absurd hstar (by decide)

theorem Bound.read?_of_ne_star {s : List Char} (h : ∀ r, s ≠ '*' :: r) :
    Bound.read? s = match s.takeWhile isDecimal with
      | [] => none
      | ds => some (.digits ds, s.dropWhile isDecimal) := by
  unfold Bound.read?
  split
  next r => exact absurd rfl (h r)
  next => rfl

/-- A side is read to its end, which is no digit. -/
theorem Bound.read?_append (side : Option Numeral) {rest : List Char}
    (hrest : ∀ c ∈ rest.head?, isDecimal c = false) :
    Bound.read? (sideText side ++ rest) = some (Bound.ofSide side, rest) := by
  cases side with
  | none => rfl
  | some n =>
      obtain ⟨d, ds, hds, hd⟩ := n.exists_cons
      have hne : ∀ r, n.digits ++ rest ≠ '*' :: r := by
        intro r hr
        rw [hds] at hr
        injection hr with hr
        exact hd hr
      obtain ⟨htake, hdrop⟩ := run_append n.decimal hrest
      unfold sideText Bound.ofSide
      simp only
      rw [Bound.read?_of_ne_star hne, htake, hdrop, hds]

/-- What is read as a side is the text of one. -/
theorem Bound.exists_of_read? {s rest : List Char} {b : Bound}
    (h : Bound.read? s = some (b, rest)) :
    ∃ side, s = sideText side ++ rest ∧ b = Bound.ofSide side := by
  by_cases hstar : ∃ r, s = '*' :: r
  · obtain ⟨r, rfl⟩ := hstar
    injection h with h
    injection h with hb hr
    exact ⟨none, by rw [← hr]; rfl, hb.symm⟩
  · rw [Bound.read?_of_ne_star fun r hr => hstar ⟨r, hr⟩] at h
    split at h
    next => cases h
    next ds hne =>
      injection h with h
      injection h with hb hr
      refine ⟨some ⟨s.takeWhile isDecimal, fun hnil => hne hnil,
        fun c hc => List.mem_takeWhile_imp hc⟩, ?_, hb.symm⟩
      rw [← hr]
      exact List.takeWhile_append_dropWhile.symm

-- =============================================================== tokens

/-- A multiplicity token that counts. A side of a range without a numeral
is a star. -/
inductive CountToken where
  | star
  | exactly (n : Numeral)
  | between (lower upper : Option Numeral)

namespace CountToken

/-- A token as it is written. -/
def text : CountToken → List Char
  | star => ['*']
  | exactly n => n.digits
  | between lower upper => sideText lower ++ '.' :: '.' :: sideText upper

/-- The numerals of a token, in the order in which they stand. -/
def numerals : CountToken → List Numeral
  | star => []
  | exactly n => [n]
  | between lower upper => lower.toList ++ upper.toList

/-- The counts that a token allows. A star allows all from zero on. -/
def counts : CountToken → Set Nat
  | star => Set.univ
  | exactly n => {n.value}
  | between lower upper =>
    {k | (lower.map Numeral.value).getD 0 ≤ k ∧ ∀ n ∈ upper, k ≤ n.value}

/-- The multiplicity that a token reads as when its numerals can be
read. -/
def cardinality (t : CountToken) : Cardinality :=
  let raw := String.ofList t.text
  match t with
  | star => { kind := .many, raw }
  | exactly n => { kind := .exact, raw, value := some n.value }
  | between lower upper =>
    { kind := .range, raw
      lower := lower.map fun n => (n.value : Int)
      upper := upper.map fun n => (n.value : Int) }

theorem text_ne_nil (t : CountToken) : t.text ≠ [] := by
  cases t with
  | star => simp [text]
  | exactly n => exact n.ne_nil
  | between lower upper => simp [text]

/-- A range is two sides around two dots. -/
theorem readRange?_eq_some {s : List Char} {l u : Bound} :
    readRange? s = some (l, u)
      ↔ ∃ lower upper, s = (between lower upper).text
        ∧ l = Bound.ofSide lower ∧ u = Bound.ofSide upper := by
  unfold readRange?
  constructor
  · intro h
    obtain ⟨⟨b, rest⟩, hlower, h⟩ := Option.bind_eq_some_iff.mp h
    obtain ⟨lower, rfl, rfl⟩ := Bound.exists_of_read? hlower
    simp only at h
    split at h
    next rest =>
      obtain ⟨⟨b, rest'⟩, hupper, h⟩ := Option.bind_eq_some_iff.mp h
      obtain ⟨upper, rfl, rfl⟩ := Bound.exists_of_read? hupper
      simp only at h
      split at h
      next hnil =>
        injection h with h
        injection h with hl hu
        refine ⟨lower, upper, ?_, hl.symm, hu.symm⟩
        rw [List.isEmpty_iff.mp hnil, List.append_nil]
        rfl
      next => cases h
    next => cases h
  · rintro ⟨lower, upper, rfl, rfl, rfl⟩
    have hdot : ∀ c ∈ ('.' :: '.' :: sideText upper).head?,
        isDecimal c = false := by
      intro c hc
      injection hc with hc
      rw [← hc]
      decide
    have hnone : ∀ c ∈ ([] : List Char).head?, isDecimal c = false := by
      intro c hc
      cases hc
    have hend := Bound.read?_append upper hnone
    rw [List.append_nil] at hend
    unfold text
    rw [Bound.read?_append lower hdot]
    simp only [Option.bind_eq_bind, Option.bind_some, hend]
    rfl

-- ============================================================== reading

/-- A token reads as its multiplicity, or fails at the first of its
numerals beyond the limit. -/
theorem ofToken_text (t : CountToken) :
    Cardinality.ofToken t.text
      = match t.numerals.find? Numeral.isTooLong with
        | some n => .error ⟨n.digits.length⟩
        | none => .ok t.cardinality := by
  unfold Cardinality.ofToken
  simp only
  cases t with
  | star => rfl
  | exactly n =>
      have hstar : n.digits ≠ ['*'] := by
        obtain ⟨d, ds, hds, hd⟩ := n.exists_cons
        intro h
        rw [hds] at h
        injection h with h
        exact hd h
      have hall : n.digits.all isDecimal = true :=
        List.all_eq_true.mpr n.decimal
      unfold text numerals cardinality
      simp only
      rw [if_neg hstar, if_pos hall, readNumeral_digits, List.find?_singleton]
      split <;> rfl
  | between lower upper =>
      -- the dots keep a range from being read as a star or as digits
      have hrange := readRange?_eq_some.mpr ⟨lower, upper, rfl, rfl, rfl⟩
      have hdot : '.' ∈ (between lower upper).text := by simp [text]
      have hstar : (between lower upper).text ≠ ['*'] := by
        intro h
        rw [h] at hdot
        exact absurd hdot (by decide)
      have hall : ¬ (between lower upper).text.all isDecimal = true := by
        intro h
        exact absurd (List.all_eq_true.mp h '.' hdot) (by decide)
      rw [if_neg hstar, if_neg hall, hrange]
      simp only
      -- the upper side is read only where the lower one can be
      rw [Bound.value_ofSide, Bound.value_ofSide]
      unfold numerals
      rw [List.find?_append]
      cases lower.toList.find? Numeral.isTooLong with
      | some n => rfl
      | none => cases upper.toList.find? Numeral.isTooLong <;> rfl

/-- Only the texts of counting tokens can fail to be read. -/
theorem exists_of_ofToken_eq_error {s : List Char} (hne : s ≠ [])
    {e : NumeralTooLong} (h : Cardinality.ofToken s = .error e) :
    ∃ t : CountToken, s = t.text := by
  unfold Cardinality.ofToken at h
  simp only at h
  split at h
  · cases h
  split at h
  next hall => exact ⟨exactly ⟨s, hne, List.all_eq_true.mp hall⟩, rfl⟩
  split at h
  next lower upper hrange =>
    obtain ⟨lower, upper, hs, -, -⟩ := readRange?_eq_some.mp hrange
    exact ⟨between lower upper, hs⟩
  next => cases h

/-- A token fails to be read at the first of its numerals beyond the
limit. -/
theorem ofToken_eq_error_iff {s : List Char} (hne : s ≠ [])
    {e : NumeralTooLong} :
    Cardinality.ofToken s = .error e
      ↔ ∃ (t : CountToken) (n : Numeral), s = t.text
        ∧ t.numerals.find? Numeral.isTooLong = some n
        ∧ e.digits = n.digits.length := by
  constructor
  · intro h
    obtain ⟨t, rfl⟩ := exists_of_ofToken_eq_error hne h
    rw [ofToken_text] at h
    split at h
    next n hn =>
      injection h with h
      exact ⟨t, n, rfl, hn, by rw [← h]⟩
    next => cases h
  · rintro ⟨t, n, rfl, hn, he⟩
    rw [ofToken_text, hn]
    exact congrArg Except.error (congrArg NumeralTooLong.mk he.symm)

end CountToken

end ApiScaffold
