/-
Leaves: texts in whatever style, words and numerals, and empty collections. Each
is written as one token behind a blank, and `readLeaf` reads that token back,
with what follows it left as it is.
-/
import ApiScaffold.Proofs.Json.ReadBack
import ApiScaffold.Proofs.Yaml.DoubleQuoted
import ApiScaffold.Proofs.Yaml.Numeral
import ApiScaffold.Proofs.Yaml.Plain
import ApiScaffold.Proofs.Yaml.SingleQuoted

namespace ApiScaffold.Yaml

-- ================================================================ tokens

/-- A token starts here: no blank, no line break and no comment. -/
def Starts (s : List Char) : Prop :=
  ∃ c t, s = c :: t ∧ isBreak c = false ∧ c ≠ ' ' ∧ c ≠ '#'

theorem Starts.cons {c : Char} (h : isBreak c = false ∧ c ≠ ' ' ∧ c ≠ '#')
    (s : List Char) : Starts (c :: s) := ⟨c, s, rfl, h⟩

section seek

variable {column : Nat} {crossed : Bool} {s : List Char}

/-- Nothing is skipped in front of a token. -/
theorem seek_of_starts (h : Starts s) : seek column crossed false s = ⟨s, column, crossed⟩ := by
  obtain ⟨c, t, rfl, hbreak, hspace, hhash⟩ := h
  rw [seek, hbreak, if_neg (by decide), decide_eq_false hspace, if_neg (by decide),
    if_neg hhash]

/-- A blank is skipped and counted. -/
theorem seek_space : seek column crossed false (' ' :: s) = seek (column + 1) crossed false s := by
  rw [seek, if_neg (by decide), if_pos (by decide)]

/-- A line break is skipped with the indentation behind it, which is the column. -/
theorem seek_lineBreak (depth : Nat) :
    seek column crossed false (Json.lineBreak depth ++ s) = seek depth true false s := by
  have hindent : ∀ n column, seek column true false (List.replicate n ' ' ++ s)
      = seek (column + n) true false s := by
    intro n
    induction n with
    | zero => exact fun _ => rfl
    | succ n ih =>
        intro column
        rw [List.replicate_succ, List.cons_append, seek_space, ih, Nat.add_right_comm]
        rfl
  rw [Json.lineBreak, List.cons_append, seek, if_pos (by decide), hindent, Nat.zero_add]

end seek

/-- A plain scalar starts with no sign of another leaf. -/
theorem readLeaf_of_startsPlain {floor column : Nat} {s : List Char}
    (h : startsPlain s = true) (hmark : startsMark s = false) :
    readLeaf floor column s = (plainValue? (readPlain floor 0 .empty s s).1).map
      fun j => (j, (readPlain floor 0 .empty s s).2) := by
  unfold readLeaf
  split
  next => cases h
  next => cases h
  next => cases h
  next => cases h
  next =>
    rw [h, hmark, Bool.and_false]
    rfl

/-- What a leaf starts with: a token, and no indicator of a block. -/
theorem starts_of_readLeaf {floor column : Nat} {s : List Char} {r : Json × List Char}
    (h : readLeaf floor column s = some r) :
    Starts s ∧ stands '-' s = false ∧ stands '?' s = false := by
  unfold readLeaf at h
  split at h
  next => exact ⟨.cons (by decide) _, rfl, rfl⟩
  next => exact ⟨.cons (by decide) _, rfl, rfl⟩
  next => exact ⟨.cons (by decide) _, rfl, rfl⟩
  next => exact ⟨.cons (by decide) _, rfl, rfl⟩
  next =>
    split at h
    next hplain =>
      rw [Bool.and_eq_true] at hplain
      obtain ⟨hplain, -⟩ := hplain
      cases s with
      | nil => cases hplain
      | cons c s =>
          unfold startsPlain at hplain
          simp only [Bool.and_eq_true, Bool.not_eq_true'] at hplain
          obtain ⟨⟨hseparator, hindicator⟩, hlone⟩ := hplain
          have hne : ∀ {d : Char}, isSeparator d = true → c ≠ d := by
            rintro d hd rfl
            rw [hd] at hseparator
            cases hseparator
          have hbreak : isBreak c = false := by
            unfold isSeparator at hseparator
            simp only [Bool.or_eq_false_iff] at hseparator
            exact hseparator.2
          have hhash : c ≠ '#' := by
            rintro rfl
            cases hindicator
          have hstands : ∀ d : Char, d = '-' ∨ d = '?' → stands d (c :: s) = false := by
            intro d hd
            rw [stands]
            by_cases hc : c = d
            · subst hc
              have halone : (decide (c = '?') || decide (c = ':') || decide (c = '-'))
                  = true := by
                rcases hd with rfl | rfl <;> rfl
              rw [halone, Bool.true_and] at hlone
              rw [hlone, Bool.and_false]
            · rw [beq_false_of_ne hc, Bool.false_and]
          exact ⟨⟨c, s, rfl, hbreak, hne (by decide), hhash⟩, hstands '-' (.inl rfl),
            hstands '?' (.inr rfl)⟩
    next => cases h

-- ================================================================ leaves

/-- A text as it is read. -/
def readText (s : List Char) : List Char :=
  match styleOf s with
  | .single => singleText s
  | _ => s

/-- A text is plain only if plain style allows it and no other leaf is spelled so. -/
theorem styleOf_eq_plain {s : List Char} (h : styleOf s = .plain) :
    allowsPlain s = true ∧ isImplicit s = false := by
  unfold styleOf at h
  split at h
  next hplain => simpa using hplain
  next => split at h <;> cases h

/-- A text is in single quotes only if these allow it. -/
theorem styleOf_eq_single {s : List Char} (h : styleOf s = .single) :
    allowsSingle s = true := by
  unfold styleOf at h
  split at h
  next => cases h
  next =>
    split at h
    next hsingle => exact hsingle
    next => cases h

/-- A text is read as it is, unless it holds a next-line character and stands in
single quotes. -/
theorem readText_eq_self_iff {s : List Char} :
    readText s = s ↔ ('\u0085' ∈ s → styleOf s ≠ .single) := by
  unfold readText
  split
  next h =>
    rw [singleText_eq_self_iff (styleOf_eq_single h)]
    exact ⟨fun hmem hin => absurd hin hmem, fun himp hin => himp hin h⟩
  next hne => exact ⟨fun _ _ h => hne h, fun _ => rfl⟩

mutual

/-- A value as it is read: each text of it as that is read. -/
def asRead : Json → Json
  | .str s => .str (String.ofList (readText s.toList))
  | .arr items => .arr (asReadItems items)
  | .obj fields => .obj (asReadFields fields)
  | j => j

/-- The items of a sequence as they are read. -/
def asReadItems : List Json → List Json
  | [] => []
  | item :: items => asRead item :: asReadItems items

/-- The fields of a mapping as they are read. -/
def asReadFields : List (String × Json) → List (String × Json)
  | [] => []
  | (key, value) :: fields => (key, asRead value) :: asReadFields fields

end

/-- A token that is read as a leaf, in a block whose scalars go on at a depth or
before it. -/
def LeafText (depth : Nat) (j : Json) (t : List Char) : Prop :=
  t ≠ [] ∧ ∀ floor column rest, floor ≤ depth → BehindScalar rest → PlainEnd floor rest →
    readLeaf floor column (t ++ rest) = some (j, rest)

/-- What stands behind a scalar is no quote. -/
theorem BehindScalar.head?_ne {rest : List Char} (h : BehindScalar rest) :
    rest.head? ≠ some '\'' := by
  intro heq
  rcases h _ heq with h | h <;> cases h

/-- The word for no value is read back. -/
theorem plainValue?_null : plainValue? "null".toList = some .null := by
  have himplicit : isImplicit "null".toList = true := by decide +kernel
  have hnull : nulls.accepts "null".toList = true := by decide +kernel
  unfold plainValue?
  rw [himplicit, hnull]
  rfl

/-- A truth value is read back from its word. -/
theorem plainValue?_bool (b : Bool) : plainValue? (wordOf (.bool b)) = some (.bool b) := by
  have himplicit : isImplicit (wordOf (.bool b)) = true := by
    cases b <;> decide +kernel
  have hdecimal : decimal? (wordOf (.bool b)) = none := by cases b <;> rfl
  have hnull : nulls.accepts (wordOf (.bool b)) = false := by
    cases b <;> decide +kernel
  have hbool : booleans.accepts (wordOf (.bool b)) = true := by
    cases b <;> decide +kernel
  have hvalue : isTrueWord (wordOf (.bool b)) = b := by
    cases b <;> decide +kernel
  unfold plainValue?
  rw [himplicit, hdecimal, hnull, hbool, hvalue]
  rfl

section leaf

variable {depth : Nat} (hdepth : 0 < depth) (fold : Bool) (p : Pen)

include hdepth

/-- A plain text is written as one token that is read back. -/
theorem exists_putPlain_leaf {s : List Char} {j : Json} (hne : s ≠ [])
    (hplain : allowsPlain s = true) (hj : plainValue? s = some j) :
    ∃ t, p.Wrote (putPlain depth fold p s) (p.gap ++ t)
      ∧ (putPlain depth fold p s).fresh = false ∧ LeafText depth j t := by
  obtain ⟨t, hwrote, hfresh, hhead, hread⟩ := exists_putPlain hne hplain hdepth fold p
  refine ⟨t, hwrote, hfresh, ?_, fun floor column rest hfloor hbehind hend => ?_⟩
  · rintro rfl
    obtain ⟨c, s, rfl⟩ := List.exists_cons_of_ne_nil hne
    cases hhead
  · obtain ⟨hstart, hmark, hrest⟩ := hread floor rest hfloor hbehind hend
    rw [readLeaf_of_startsPlain hstart hmark, hrest]
    show (plainValue? s).map _ = _
    rw [hj]
    rfl

/-- A text is read back, in whatever style it is written. -/
theorem exists_putText (hwidth : depth < bestWidth) (s : List Char) :
    ∃ t, p.Wrote (putText depth fold p s) (p.gap ++ t)
      ∧ (putText depth fold p s).fresh = false
      ∧ LeafText depth (.str (String.ofList (readText s))) t := by
  unfold putText readText
  split
  next hstyle =>
    have hplain := styleOf_eq_plain hstyle
    have hne : s ≠ [] := by
      rintro rfl
      exact absurd hplain.2 (by decide +kernel)
    refine exists_putPlain_leaf hdepth fold p hne hplain.1 ?_
    unfold plainValue?
    rw [hplain.2, hstyle]
    rfl
  next hstyle =>
    obtain ⟨t, hwrote, hfresh, hread⟩ := exists_putSingle (styleOf_eq_single hstyle)
      hdepth (Nat.le_of_lt hwidth) fold p
    refine ⟨_, hwrote, hfresh, List.cons_ne_nil _ _, fun floor column rest _ hbehind _ => ?_⟩
    show (readSingle .empty (t ++ rest)).map _ = _
    rw [hread rest hbehind.head?_ne, hstyle]
    rfl
  next hstyle =>
    obtain ⟨t, hwrote, hfresh, hread⟩ := exists_putDouble s hdepth hwidth fold p
    refine ⟨_, hwrote, hfresh, List.cons_ne_nil _ _, fun floor column rest _ _ _ => ?_⟩
    show (readDouble .empty (t ++ rest)).map _ = _
    rw [hread rest, hstyle]
    rfl

end leaf

/-- A value without parts: a scalar, or an empty collection. -/
def isLeaf : Json → Bool
  | .arr items => items.isEmpty
  | .obj fields => fields.isEmpty
  | _ => true

/-- A leaf is written behind a blank and read back. -/
theorem exists_putLeaf {j : Json} (h : j.Readable) (hleaf : isLeaf j = true) (place : Place)
    {depth : Nat} (hwidth : depth + 2 < bestWidth) (p : Pen) :
    ∃ t, p.Wrote (putNode place (some depth) p j) (p.gap ++ t)
      ∧ (putNode place (some depth) p j).fresh = false
      ∧ LeafText (depth + 2) (asRead j) t := by
  have hdepth : 0 < depth + 2 := by omega
  have hempty : ∀ {j : Json} {a b : Char}, (∀ floor column rest,
      readLeaf floor column (a :: b :: rest) = some (j, rest)) →
      ∃ t, p.Wrote ((p.indicator [a] true true false).indicator [b] false false false)
          (p.gap ++ t)
        ∧ ((p.indicator [a] true true false).indicator [b] false false false).fresh = false
        ∧ LeafText (depth + 2) j t := by
    intro j a b hread
    refine ⟨[a, b], ?_, Bool.and_false _, List.cons_ne_nil _ _, fun _ _ _ _ _ _ => hread _ _ _⟩
    have hall := (p.wrote_indicator [a] true false).trans
      (Pen.wrote_indicator_joined _ [b] false false)
    rw [List.append_assoc] at hall
    exact hall
  cases h with
  | null =>
      exact exists_putPlain_leaf hdepth true p (by decide) (by decide) plainValue?_null
  | bool b =>
      have hne : wordOf (.bool b) ≠ [] := by cases b <;> decide
      have hplain : allowsPlain (wordOf (.bool b)) = true := by cases b <;> decide
      exact exists_putPlain_leaf hdepth true p hne hplain (plainValue?_bool b)
  | int hn =>
      rename_i n
      have hne : Json.intText n ≠ [] := by
        obtain ⟨c, cs, hcs, -⟩ := exists_decimal_cons n.natAbs
        unfold Json.intText
        rw [hcs]
        split <;> exact List.cons_ne_nil _ _
      exact exists_putPlain_leaf hdepth true p hne (allowsPlain_intText n)
        (plainValue?_intText hn)
  | str s =>
      exact exists_putText hdepth true p hwidth s.toList
  | arr h =>
      obtain rfl := List.isEmpty_iff.mp hleaf
      exact hempty fun _ _ _ => rfl
  | obj hkeys h =>
      obtain rfl := List.isEmpty_iff.mp hleaf
      exact hempty fun _ _ _ => rfl

-- ============================================================ collections

/-- A sequence that is not empty is written as its items. -/
theorem putNode_items (place : Place) (depth : Option Nat) (p : Pen) (item : Json)
    (items : List Json) :
    putNode place depth p (.arr (item :: items))
      = putItems (if place == .value && !p.fresh then depth.getD 0 else inner depth) p
          (item :: items) := by
  rw [putNode, putItems]

/-- A mapping that is not empty is written as its fields. -/
theorem putNode_fields (place : Place) (depth : Option Nat) (p : Pen)
    {fields : List (String × Json)} (hne : fields ≠ []) :
    putNode place depth p (.obj fields) = putFields (inner depth) p fields := by
  obtain ⟨⟨key, value⟩, fields, rfl⟩ := List.exists_cons_of_ne_nil hne
  rw [putNode, putFields]

end ApiScaffold.Yaml
