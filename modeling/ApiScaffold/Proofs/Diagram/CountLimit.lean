/-
Counts of a diagram that was read have no more digits than the limit. The
limit is on what stands in the text, leading zeros included, and a numeral of
so many digits is below the power of ten of that many (`numeralValue_lt`);
nothing between a numeral and a decision about a property makes a count
larger, so the bounds of a property are within the limit too.

`Gives x P` says of a reading that whatever it gives is as `P` says. Like
failing (`FailsAs`), it goes along with readings that are made one after
another, from a run of digits to a whole text.
-/
import ApiScaffold.Diagram.Parser
import Mathlib.Algebra.Group.Nat.Defs
import Mathlib.Data.List.Induction

namespace ApiScaffold

-- ================================================== successful readings

/-- Whatever a reading gives is as `P` says. -/
def Gives {α : Type} (x : Except NumeralTooLong α) (P : α → Prop) : Prop :=
  ∀ a, x = .ok a → P a

namespace Gives

variable {α β : Type} {x : Except NumeralTooLong α} {P : α → Prop}

/-- A result that is given has what is asked of it. -/
theorem ok {a : α} (h : P a) : Gives (.ok a) P := by
  intro b hb
  injection hb with hb
  exact hb ▸ h

/-- Readers in a row give what the second gives for results of the first. -/
theorem andThen {f : α → Except NumeralTooLong β} {Q : β → Prop}
    (hx : Gives x P) (hf : ∀ a, P a → Gives (f a) Q) : Gives (x >>= f) Q := by
  intro b hb
  cases x with
  | error e => cases hb
  | ok a => exact hf a (hx a rfl) b hb

/-- A result may be changed into another. -/
theorem map {f : α → β} {Q : β → Prop} (hx : Gives x P)
    (hf : ∀ a, P a → Q (f a)) : Gives (x.map f) Q := by
  intro b hb
  cases x with
  | error e => cases hb
  | ok a =>
      injection hb with hb
      exact hb ▸ hf a (hx a rfl)

end Gives

-- ============================================================= numerals

/-- A count with no more digits than a numeral may have. -/
def WithinLimit (n : Int) : Prop := n.natAbs < 10 ^ numeralLimit

theorem withinLimit_none : ∀ n ∈ (none : Option Int), WithinLimit n := by
  intro n hn
  cases hn

theorem withinLimit_some {count : Int} (h : WithinLimit count) :
    ∀ n ∈ some count, WithinLimit n := by
  intro n hn
  injection hn with hn
  exact hn ▸ h

/-- A digit has a value below ten. -/
theorem digitValue?_lt (c : Char) : (digitValue? c).getD 0 < 10 := by
  unfold digitValue?
  split
  next hdigit =>
    simp only [Char.isDigit, Bool.and_eq_true, decide_eq_true_eq] at hdigit
    have hle : c.toNat ≤ 57 := hdigit.2
    show c.toNat - 48 < 10
    omega
  next =>
    split
    next => decide
    next =>
      cases hzero : digitZeros.find?
          (fun z => z ≤ c.toNat && c.toNat < z + 10) with
      | none => exact Nat.zero_lt_succ 9
      | some z =>
          have hz := List.find?_some hzero
          simp only [Bool.and_eq_true, decide_eq_true_eq] at hz
          show c.toNat - z < 10
          omega

/-- So many digits denote less than that power of ten. -/
theorem numeralValue_lt (ds : List Char) : numeralValue ds < 10 ^ ds.length := by
  induction ds using List.reverseRecOn with
  | nil => decide
  | append_singleton ds c ih =>
      have hc := digitValue?_lt c
      have hstep : numeralValue (ds ++ [c])
          = 10 * numeralValue ds + (digitValue? c).getD 0 := by
        unfold numeralValue
        rw [List.foldl_append]
        rfl
      rw [hstep, List.length_append, List.length_singleton, Nat.pow_succ]
      omega

/-- A numeral that can be read is within the limit. -/
theorem gives_readNumeral (ds : List Char) :
    Gives (readNumeral ds) WithinLimit := by
  unfold readNumeral
  split
  next =>
    intro n hn
    cases hn
  next hshort =>
    refine .ok (Nat.lt_of_lt_of_le (numeralValue_lt ds) ?_)
    exact Nat.pow_le_pow_right (by decide) (Nat.le_of_not_lt hshort)

/-- A bound that can be read is within the limit, where there is one. -/
theorem Bound.gives_value (b : Bound) :
    Gives b.value fun count => ∀ n ∈ count, WithinLimit n := by
  cases b with
  | unbounded => exact .ok withinLimit_none
  | digits ds => exact (gives_readNumeral ds).map fun _ => withinLimit_some

-- ======================================================= multiplicities

/-- The counts of a multiplicity are within the limit. -/
structure Cardinality.Limited (c : Cardinality) : Prop where
  value : ∀ n ∈ c.value, WithinLimit n
  lower : ∀ n ∈ c.lower, WithinLimit n
  upper : ∀ n ∈ c.upper, WithinLimit n

/-- A multiplicity that can be read has counts within the limit. -/
theorem Cardinality.gives_ofToken (s : List Char) :
    Gives (Cardinality.ofToken s) Cardinality.Limited := by
  have hblank : ∀ {kind : CardinalityKind} {raw : String}
      {label : Option String},
      Cardinality.Limited { kind, raw, label } :=
    ⟨withinLimit_none, withinLimit_none, withinLimit_none⟩
  unfold Cardinality.ofToken
  simp only
  split
  next => exact .ok hblank
  next =>
    split
    next =>
      refine (gives_readNumeral s).andThen fun count hcount => ?_
      exact .ok ⟨withinLimit_some hcount, withinLimit_none, withinLimit_none⟩
    next =>
      split
      next lower upper _ =>
        refine lower.gives_value.andThen fun low hlow => ?_
        refine upper.gives_value.andThen fun high hhigh => ?_
        exact .ok ⟨withinLimit_none, hlow, hhigh⟩
      next => exact .ok hblank

/-- So has one that may be missing. -/
theorem Cardinality.gives_ofText? (s : Option (List Char)) :
    Gives (Cardinality.ofText? s) fun c => ∀ c' ∈ c, c'.Limited := by
  have hnone : ∀ c ∈ (none : Option Cardinality), c.Limited := by
    intro c hc
    cases hc
  cases s with
  | none => exact .ok hnone
  | some s =>
      show Gives (Cardinality.ofText s) _
      unfold Cardinality.ofText
      split
      next => exact .ok hnone
      next =>
        refine (Cardinality.gives_ofToken _).map fun c hc c' hc' => ?_
        injection hc' with hc'
        exact hc' ▸ hc

/-- The bounds of a property that a multiplicity decides. -/
theorem Decision.limited_ofCardinality? {o : Option Cardinality}
    (h : ∀ c ∈ o, c.Limited) :
    (∀ n ∈ (Decision.ofCardinality? o).minItems, WithinLimit n)
      ∧ ∀ n ∈ (Decision.ofCardinality? o).maxItems, WithinLimit n := by
  have hcount : ∀ {count : Option Int}, (∀ n ∈ count, WithinLimit n) →
      WithinLimit (count.getD 0) := by
    intro count hcount
    cases count with
    | none => exact Nat.pow_pos (by decide)
    | some n => exact hcount n rfl
  cases o with
  | none => exact ⟨withinLimit_none, withinLimit_none⟩
  | some c =>
      obtain ⟨hvalue, hlower, hupper⟩ := h c rfl
      show (∀ n ∈ (Decision.ofCardinality c).minItems, _)
        ∧ ∀ n ∈ (Decision.ofCardinality c).maxItems, _
      unfold Decision.ofCardinality
      split
      next => exact ⟨withinLimit_none, withinLimit_none⟩
      next =>
        simp only
        split
        next => exact ⟨withinLimit_none, withinLimit_none⟩
        next =>
          have hcounts := withinLimit_some (hcount hvalue)
          exact ⟨hcounts, hcounts⟩
      next =>
        simp only
        split
        next => exact ⟨withinLimit_none, withinLimit_none⟩
        next =>
          refine ⟨?_, hupper⟩
          split
          next => exact withinLimit_some (hcount hlower)
          next => exact withinLimit_none
      next =>
        -- a label decides without counts
        have hlabel : ∀ label, (Decision.ofLabel label).minItems = none
            ∧ (Decision.ofLabel label).maxItems = none := by
          intro label
          unfold Decision.ofLabel
          simp only
          split
          · exact ⟨rfl, rfl⟩
          · split <;> exact ⟨rfl, rfl⟩
        split <;> rw [(hlabel _).1, (hlabel _).2] <;>
          exact ⟨withinLimit_none, withinLimit_none⟩

-- ============================================================ relations

/-- What a relation has from the two ends and the arrow that give it. -/
theorem Relation.of_ofEnds_eq_ok {source target : RelationEnd} {arrow : Arrow}
    {r : Relation} (h : Relation.ofEnds source arrow target = .ok r) :
    Cardinality.ofText? source.cardinality = .ok r.fromCardinality
      ∧ Cardinality.ofText? target.cardinality = .ok r.toCardinality
      ∧ r.source = String.ofList source.name ∧ r.target = String.ofList target.name
      ∧ r.symbol = arrow.text ∧ r.kind = RelationKind.ofSymbol arrow.text := by
  unfold Relation.ofEnds at h
  cases hsource : Cardinality.ofText? source.cardinality with
  | error e => rw [hsource] at h; cases h
  | ok low =>
      cases htarget : Cardinality.ofText? target.cardinality with
      | error e => rw [hsource, htarget] at h; cases h
      | ok high =>
          rw [hsource, htarget] at h
          injection h with h
          subst h
          exact ⟨rfl, rfl, rfl, rfl, rfl, rfl⟩

/-- What holds of every relation that the ends of a line give holds of the
relation of the line. -/
theorem Relation.gives_ofLine?_of_ends {P : Relation → Prop} {line : List Char}
    (h : ∀ source arrow target,
      RelationLine.ofLine line = .between source arrow target →
        Gives (Relation.ofEnds source arrow target) P) :
    Gives (Relation.ofLine? line) fun o => ∀ r ∈ o, P r := by
  unfold Relation.ofLine?
  split
  next source arrow target hline =>
    refine (h source arrow target hline).map fun r hr r' hr' => ?_
    injection hr' with hr'
    exact hr' ▸ hr
  next => exact .ok fun r hr => by cases hr

/-- What holds of the relation of any line holds of those of lines. -/
theorem gives_relationsOfLines {P : Relation → Prop}
    (h : ∀ line, Gives (Relation.ofLine? line) fun o => ∀ r ∈ o, P r)
    (ls : List (List Char)) :
    Gives (relationsOfLines ls) fun rs => ∀ r ∈ rs, P r := by
  induction ls with
  | nil => exact .ok fun r hr => by cases hr
  | cons line ls ih =>
      unfold relationsOfLines
      refine (h line).andThen fun o ho => ?_
      refine ih.andThen fun rs hrs => .ok fun r hr => ?_
      rcases List.mem_append.mp hr with hr | hr
      · exact ho r (Option.mem_toList.mp hr)
      · exact hrs r hr

/-- What holds of the relation of any line holds of those of a text. -/
theorem Diagram.gives_parse_relations {P : Relation → Prop}
    (h : ∀ line, Gives (Relation.ofLine? line) fun o => ∀ r ∈ o, P r)
    (text : String) :
    Gives (Diagram.parse text) fun d => ∀ r ∈ d.relations, P r := by
  unfold Diagram.parse Diagram.ofNormalized findRelations
  exact (gives_relationsOfLines h _).map fun rs hrs => hrs

/-- The counts at both ends of a relation are within the limit. -/
structure Relation.Limited (r : Relation) : Prop where
  source : ∀ c ∈ r.fromCardinality, c.Limited
  target : ∀ c ∈ r.toCardinality, c.Limited

/-- A relation that can be read has counts within the limit. -/
theorem Relation.gives_ofLine? (line : List Char) :
    Gives (Relation.ofLine? line) fun o => ∀ r ∈ o, r.Limited := by
  refine Relation.gives_ofLine?_of_ends fun source arrow target _ r hr => ?_
  obtain ⟨hsource, htarget, -⟩ := Relation.of_ofEnds_eq_ok hr
  exact ⟨Cardinality.gives_ofText? _ _ hsource, Cardinality.gives_ofText? _ _ htarget⟩

/-- Every count that a text puts into its diagram is within the limit. -/
theorem Diagram.gives_parse (text : String) :
    Gives (Diagram.parse text) fun d => ∀ r ∈ d.relations, r.Limited :=
  Diagram.gives_parse_relations Relation.gives_ofLine? text

end ApiScaffold
