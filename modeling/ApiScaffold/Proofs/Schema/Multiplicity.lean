/-
Multiplicities survive the way from a token to a schema. A token that
counts allows a set of counts (`CountToken.counts`), and so does a property
of a draft (`Draft.counts`): a reference holds one value, an array as many
as its bounds admit, and a property that is not required may be missing,
which is none.

The decision about a multiplicity chooses between these with several
special cases: one and only one is a plain reference, an upper bound of one
makes it optional, a lower bound of zero is not written but leaves the
property optional. `counts_ofCardinality` goes through the tokens form by
form; a range without any count is the one thing left out, since no
property can say that.

The last write of a property decides, so nothing depends on what was
written before, but for one thing: a name required twice would stay
required when it is taken back once. It never is (`Draft.kept_nodup_required`).

The counts of a property can be read from the JSON of its draft as well, from
the keys that a reference and an array have there (`Json.counts`). For what a
decision writes the two agree (`Draft.counts_toJson`).
-/
import ApiScaffold.Proofs.Diagram.CountToken
import ApiScaffold.Proofs.Schema.Steps
import ApiScaffold.Proofs.Schema.Written

namespace ApiScaffold

-- =================================================== statement vocabulary

/-- Whether a property with this schema can hold `k` values. -/
def Fragment.Holds (k : Nat) : Fragment → Prop
  | .ref _ => k = 1
  | .array _ low high =>
    (∀ m ∈ low, m ≤ (k : Int)) ∧ ∀ m ∈ high, (k : Int) ≤ m
  | .plain _ _ => k = 1
  | .given _ => False

/-- How many values the objects of a draft can have under a name. A name
that is not required may be missing. -/
def Draft.counts (d : Draft) (name : String) : Set Nat :=
  {k | (∃ f, d.properties.get? name = some f ∧ f.Holds k)
    ∨ (name ∉ d.required ∧ k = 0)}

/-- Whether a written property can hold `k` values: one by a reference, as many
as its bounds admit by an array. -/
def Json.Holds (k : Nat) (j : Json) : Prop :=
  ((∃ pointer, j.field? "$ref" = some (.str pointer)) ∧ k = 1)
    ∨ (j.field? "type" = some (.str "array")
      ∧ (∀ m, j.field? "minItems" = some (.int m) → m ≤ (k : Int))
      ∧ ∀ m, j.field? "maxItems" = some (.int m) → (k : Int) ≤ m)

/-- How many values the objects of a written schema can have under a name. -/
def Json.counts (schema : Json) (name : String) : Set Nat :=
  {k | (∃ j, schema.property? name = some j ∧ j.Holds k)
    ∨ (¬ schema.Requires name ∧ k = 0)}

-- ============================================================ decisions

/-- The counts that a decision leaves for a property. -/
def Decision.counts (o : Decision) (target : String) : Set Nat :=
  {k | (o.schema target).Holds k ∨ (o.required = false ∧ k = 0)}

variable {target : String}

/-- A plain reference holds one value. -/
theorem Decision.counts_single (required : Bool) :
    ({ required } : Decision).counts target
      = {k | k = 1 ∨ (required = false ∧ k = 0)} := rfl

/-- An array holds what its bounds admit. -/
theorem Decision.counts_array (required : Bool) (low high : Option Int) :
    ({ isArray := true, required, minItems := low, maxItems := high }
        : Decision).counts target
      = {k : Nat | ((∀ m ∈ low, m ≤ (k : Int)) ∧ ∀ m ∈ high, (k : Int) ≤ m)
        ∨ (required = false ∧ k = 0)} := rfl

/-- A reference holds one value, written or not. -/
theorem Fragment.holds_ref {pointer : String} {k : Nat} :
    (Fragment.ref pointer).toJson.Holds k ↔ (Fragment.ref pointer).Holds k := by
  have hpointer : (Fragment.ref pointer).toJson.field? "$ref" = some (.str pointer) := rfl
  have htype : (Fragment.ref pointer).toJson.field? "type" = none := rfl
  unfold Json.Holds Fragment.Holds
  simp [hpointer, htype]

/-- The bounds of an array are found in its JSON. -/
theorem Fragment.holds_array {items : Fragment} {low high : Option Int} {k : Nat} :
    (Fragment.array items low high).toJson.Holds k
      ↔ (Fragment.array items low high).Holds k := by
  have hpointer : (Fragment.array items low high).toJson.field? "$ref" = none := by
    cases low <;> cases high <;> rfl
  have htype : (Fragment.array items low high).toJson.field? "type"
      = some (.str "array") := rfl
  have hlow : (Fragment.array items low high).toJson.field? "minItems"
      = low.map Json.int := by
    cases low <;> cases high <;> rfl
  have hhigh : (Fragment.array items low high).toJson.field? "maxItems"
      = high.map Json.int := by
    cases low <;> cases high <;> rfl
  unfold Json.Holds Fragment.Holds
  simp [hpointer, htype, hlow, hhigh]

/-- What a decision writes holds as many values in its JSON. -/
theorem Decision.holds_toJson (o : Decision) {k : Nat} :
    (o.schema target).toJson.Holds k ↔ (o.schema target).Holds k := by
  unfold schema
  split
  · exact Fragment.holds_array
  · exact Fragment.holds_ref

-- ========================================================== exact numbers

theorem Decision.ofCardinality_exactly (n : Numeral) :
    ofCardinality (CountToken.exactly n).cardinality
      = if n.value = 1 then { required := true }
        else { isArray := true, required := decide (0 < n.value)
               minItems := some n.value, maxItems := some n.value } := by
  unfold ofCardinality CountToken.cardinality
  by_cases hone : n.value = 1
  · rw [if_pos hone]
    simp [hone]
  · have hint : ¬ ((n.value : Int) = 1) := by omega
    rw [if_neg hone]
    simp only [Option.getD_some, gt_iff_lt, Int.natCast_pos]
    rw [if_neg hint]

theorem counts_ofCardinality_exactly (n : Numeral) :
    (Decision.ofCardinality (CountToken.exactly n).cardinality).counts target
      = (CountToken.exactly n).counts := by
  rw [Decision.ofCardinality_exactly]
  split
  next hone =>
    rw [Decision.counts_single]
    ext k
    simp [CountToken.counts, hone]
  next =>
    -- the array of no values is the one that may be missing
    rw [Decision.counts_array]
    ext k
    simp only [CountToken.counts, Option.mem_some_iff, forall_eq',
      Set.mem_ofPred_eq, Set.mem_singleton_iff, decide_eq_false_iff_not]
    omega

-- ================================================================ ranges

/-- The lower bound of a range as a number, zero for a star. -/
def CountToken.lowest (lower : Option Numeral) : Nat :=
  (lower.map Numeral.value).getD 0

theorem Decision.ofCardinality_between (lower upper : Option Numeral) :
    ofCardinality (CountToken.between lower upper).cardinality
      = if upper.map Numeral.value = some 1
        then { required := decide (0 < CountToken.lowest lower) }
        else
          { isArray := true, required := decide (0 < CountToken.lowest lower)
            minItems := if 0 < CountToken.lowest lower
              then some (CountToken.lowest lower : Int) else none
            maxItems := upper.map fun n => (n.value : Int) } := by
  have hlower : (lower.map fun n => (n.value : Int)).getD 0
      = CountToken.lowest lower := by
    cases lower <;> rfl
  have hupper : (upper.map fun n => (n.value : Int)) = some 1
      ↔ upper.map Numeral.value = some 1 := by
    cases upper with
    | none => simp
    | some n => simp only [Option.map_some, Option.some.injEq]; omega
  unfold ofCardinality CountToken.cardinality
  simp only [hlower, hupper, gt_iff_lt, Int.natCast_pos]

/-- A lower bound of zero may as well be left out. -/
theorem forall_lowest_le_iff {low k : Nat} :
    (∀ m ∈ (if 0 < low then some (low : Int) else none), m ≤ (k : Int))
      ↔ low ≤ k := by
  split
  next => simp
  next hzero => simp; omega

theorem counts_ofCardinality_between {lower upper : Option Numeral}
    (hne : (CountToken.between lower upper).counts.Nonempty) :
    (Decision.ofCardinality
        (CountToken.between lower upper).cardinality).counts target
      = (CountToken.between lower upper).counts := by
  obtain ⟨k', hlow, hhigh⟩ := hne
  rw [Decision.ofCardinality_between]
  split
  next hone =>
    -- some count is at most one, so the lower bound is zero or one
    obtain ⟨n, rfl, hn⟩ := Option.map_eq_some_iff.mp hone
    have hle := hhigh n rfl
    rw [Decision.counts_single]
    ext k
    simp only [CountToken.counts, Option.mem_some_iff, forall_eq',
      Set.mem_ofPred_eq, decide_eq_false_iff_not, hn]
    unfold CountToken.lowest
    omega
  next =>
    have hupper : ∀ k : Nat,
        (∀ m ∈ upper.map fun n => (n.value : Int), (k : Int) ≤ m)
          ↔ ∀ n ∈ upper, k ≤ n.value := by
      intro k
      cases upper <;> simp
    rw [Decision.counts_array]
    ext k
    simp only [CountToken.counts, Set.mem_ofPred_eq, decide_eq_false_iff_not,
      forall_lowest_le_iff, hupper]
    constructor
    · rintro (h | ⟨hzero, rfl⟩)
      · exact h
      · exact ⟨by unfold CountToken.lowest at hzero; omega,
          fun n hn => Nat.zero_le _⟩
    · exact Or.inl

-- ================================================================ tokens

/-- The decision about a token leaves exactly the counts of the token. -/
theorem counts_ofCardinality {t : CountToken} (hne : t.counts.Nonempty) :
    (Decision.ofCardinality t.cardinality).counts target = t.counts := by
  cases t with
  | star =>
      ext k
      simp [Decision.counts, Decision.schema, Decision.ofCardinality,
        CountToken.cardinality, CountToken.counts, Fragment.Holds]
  | exactly n => exact counts_ofCardinality_exactly n
  | between lower upper => exact counts_ofCardinality_between hne

-- ============================================================== drafts

/-- A name is required after a write when the write requires it. -/
theorem Draft.mem_required_write {d : Draft} (hd : d.required.Nodup)
    (name : String) (schema : Fragment) (required : Bool) :
    name ∈ (d.write name schema required).required ↔ required = true := by
  unfold Draft.write
  cases required with
  | true =>
      simp only [if_true, iff_true]
      split
      next h => exact List.contains_iff_mem.mp h
      next => simp
  | false => simp [hd.mem_erase_iff]

/-- A write leaves its schema under its name. -/
theorem Draft.get?_write_self (d : Draft) (name : String) (schema : Fragment)
    (required : Bool) :
    (d.write name schema required).properties.get? name = some schema := by
  unfold Draft.write
  simp only
  rw [OrderedMap.get?_put, if_pos rfl]

/-- A write decides how many values a property can have. -/
theorem Draft.counts_write {d : Draft} (hd : d.required.Nodup) (name : String)
    (o : Decision) :
    (d.write name (o.schema target) o.required).counts name
      = o.counts target := by
  ext k
  unfold Draft.counts Decision.counts
  simp only [Set.mem_ofPred_eq]
  rw [Draft.get?_write_self, Draft.mem_required_write hd, Bool.not_eq_true]
  simp

/-- Where a decision has written a property, its counts stand in the JSON. -/
theorem Draft.counts_toJson {d : Draft} {name : String} {o : Decision}
    (h : d.properties.get? name = some (o.schema target)) :
    d.toJson.counts name = d.counts name := by
  ext k
  unfold Json.counts Draft.counts
  simp only [Set.mem_ofPred_eq]
  rw [Draft.property?_toJson, h, Draft.requires_toJson]
  simp [Decision.holds_toJson]

-- ============================================================ relations

/-- A structural relation between known ends writes its property into the
draft of its source. -/
theorem Builder.draftOf_relate_source {b : Builder} {r : Relation}
    (hkind : r.kind.isStructural = true)
    (hsource : r.source ∈ b.diagram.entityNames)
    (htarget : r.target ∈ b.diagram.declaredNames) :
    (b.relate r).draftOf r.source
      = (b.draftOf r.source).write (propertyName r.target) (relationSchema r)
          (Decision.ofCardinality? r.toCardinality).required := by
  have hprop : b.diagram.givesProperty r = true := by
    unfold Diagram.givesProperty
    simp only [Bool.and_eq_true, List.contains_iff_mem]
    exact ⟨⟨hkind, hsource⟩, htarget⟩
  rw [draftOf_relate, if_pos rfl]
  unfold Diagram.writesBy
  rw [if_pos hprop]
  rfl

/-- A token that counts, and whose numerals can be read, reads as its
multiplicity, whatever blanks stand around it. -/
theorem Cardinality.ofText_of_trim {t : CountToken} {raw : List Char}
    (htext : trim raw = t.text)
    (hlimit : ∀ n ∈ t.numerals, n.digits.length ≤ numeralLimit) :
    Cardinality.ofText raw = .ok (some t.cardinality) := by
  have hshort : t.numerals.find? Numeral.isTooLong = none := by
    rw [List.find?_eq_none]
    intro n hn
    have hle := hlimit n hn
    unfold Numeral.isTooLong
    simpa using hle
  unfold Cardinality.ofText
  split
  next hblank => exact absurd (htext ▸ hblank) t.text_ne_nil
  next => rw [htext, CountToken.ofToken_text, hshort]; rfl

/-- Whatever steps a builder has taken, a structural relation between known
ends whose target bears a token that allows some count gives the draft of
its source a property with exactly the counts of the token, and so it stands in
the JSON of the draft. -/
theorem relation_keeps_counts {d : Diagram} {b : Builder}
    (hb : Builder.Reachable d b) {t : CountToken} {raw : List Char}
    (htext : trim raw = t.text)
    (hlimit : ∀ n ∈ t.numerals, n.digits.length ≤ numeralLimit)
    (hne : t.counts.Nonempty) {r : Relation}
    (hkind : r.kind.isStructural = true)
    (hsource : r.source ∈ d.entityNames) (htarget : r.target ∈ d.declaredNames)
    (htoken : Cardinality.ofText raw = .ok r.toCardinality) :
    (∃ f, ((b.relate r).draftOf r.source).properties.get?
        (propertyName r.target) = some f)
      ∧ ((b.relate r).draftOf r.source).counts (propertyName r.target)
        = t.counts
      ∧ ((b.relate r).draftOf r.source).toJson.counts (propertyName r.target)
        = t.counts := by
  have hdecision : Decision.ofCardinality? r.toCardinality
      = Decision.ofCardinality t.cardinality := by
    rw [Cardinality.ofText_of_trim htext hlimit] at htoken
    injection htoken with htoken
    rw [← htoken]
    rfl
  rw [← hb.diagram_eq] at hsource htarget
  rw [Builder.draftOf_relate_source hkind hsource htarget, relationSchema_eq,
    hdecision]
  generalize ho : Decision.ofCardinality t.cardinality = o
  have hget := (b.draftOf r.source).get?_write_self (propertyName r.target)
    (o.schema r.target) o.required
  have hcounts : ((b.draftOf r.source).write (propertyName r.target) (o.schema r.target)
      o.required).counts (propertyName r.target) = t.counts := by
    rw [Draft.counts_write (hb.draftOf Draft.kept_nodup_required r.source), ← ho]
    exact counts_ofCardinality hne
  exact ⟨⟨_, hget⟩, hcounts, (Draft.counts_toJson hget).trans hcounts⟩

/-- A relation over a required attribute of the same name, whose token has
blanks around it and mixes the digits of two scripts. -/
theorem relation_keeps_counts_of_zero_to_three :
    let d : Diagram := {
      classes := [
        { name := "Order", attributes := [⟨"item", some "int", .pub⟩] },
        { name := "Item" }] }
    let r : Relation := ⟨"Order", "Item", .composition, "*--", none,
      some { kind := .range, raw := "0..\u0663", lower := some 0
             upper := some 3 }⟩
    let b := ((Builder.new d).step .build).1
    let own := (b.relate r).draftOf "Order"
    Cardinality.ofText "\t0..\u0663 ".toList = .ok r.toCardinality
      ∧ own.counts "item" = {k | k ≤ 3}
      ∧ own.toJson.counts "item" = {k | k ≤ 3} := by
  intro d r b own
  let low : Numeral := ⟨['0'], by simp, List.all_eq_true.mp (by decide)⟩
  let high : Numeral := ⟨['\u0663'], by simp, List.all_eq_true.mp (by decide)⟩
  have hcounts : (CountToken.between (some low) (some high)).counts
      = {k | k ≤ 3} := by
    have hlow : low.value = 0 := by decide +kernel
    have hhigh : high.value = 3 := by decide +kernel
    ext k
    simp [CountToken.counts, hlow, hhigh]
  have hbuilder : Builder.Reachable d b := .step .build .new
  have htoken : Cardinality.ofText "\t0..\u0663 ".toList
      = .ok r.toCardinality := by
    decide +kernel
  have hname : propertyName r.target = "item" := by decide +kernel
  refine ⟨htoken, ?_⟩
  rw [← hcounts, ← hname]
  refine (relation_keeps_counts hbuilder
    (t := .between (some low) (some high)) (by decide +kernel) (by decide) ?_
    (by decide) (by decide) (by decide) htoken).2
  rw [hcounts]
  exact ⟨0, Nat.zero_le 3⟩

end ApiScaffold
