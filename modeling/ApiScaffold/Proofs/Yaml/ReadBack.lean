/-
Values that are read back from their text. A value is written behind an indicator,
on whose line a block may start, or behind a key, where a block starts on the next
line and a sequence there at the column of the key. `ReadsInline` and `ReadsBelow`
are what the reader owes in the two places: the value, and the text that follows
untouched, if that starts a line no deeper than the block around (`Follows`).

Items and fields owe the same one after another, up to a line that is none of
theirs (`exists_putItems`, `exists_putFields`). No more fuel is used than twice
the characters that are read, since every third call at most has an indicator or
a line break behind it.
-/
import ApiScaffold.Proofs.Yaml.Key

namespace ApiScaffold.Yaml

-- ============================================================ what follows

/-- What may follow a node of a block at a column: a line that starts no deeper,
and at the column itself with no further item, unless `dash` allows one. -/
def Follows (column : Nat) (dash : Bool) (rest : List Char) : Prop :=
  ∃ k more, rest = Json.lineBreak k ++ more ∧ k ≤ column ∧ (more = [] ∨ Starts more)
    ∧ (k = column → dash = true ∨ stands '-' more = false)

section follows

variable {column k : Nat} {dash : Bool} {more rest : List Char}

/-- What may follow where no item may stand may also follow where one may. -/
theorem Follows.relax (h : Follows column dash rest) : Follows column true rest := by
  obtain ⟨k, more, rfl, hk, hmore, -⟩ := h
  exact ⟨k, more, rfl, hk, hmore, fun _ => .inl rfl⟩

/-- Behind a scalar of the block the line ends. -/
theorem Follows.behindScalar (h : Follows column dash rest) : BehindScalar rest := by
  obtain ⟨k, more, rfl, -⟩ := h
  exact fun c hc => .inl (Option.some.inj hc).symm

/-- A plain scalar of the block ends in front of what follows. -/
theorem Follows.plainEnd (h : Follows column dash rest) : PlainEnd (column + 1) rest := by
  obtain ⟨k, more, rfl, hk, hmore, -⟩ := h
  refine plainEnd_line (Nat.lt_succ_of_le hk) fun c hc => ?_
  rcases hmore with rfl | ⟨d, t, rfl, hbreak, hspace, -⟩
  · cases hc
  · obtain rfl : d = c := Option.some.inj hc
    exact ⟨hbreak, hspace⟩

/-- The line behind a break goes on with a block exactly at its column. -/
theorem nextAt?_lineBreak (hmore : more = [] ∨ Starts more) :
    nextAt? column (Json.lineBreak k ++ more)
      = if k = column ∧ more ≠ [] then some more else none := by
  have hseek : seek 0 false false (Json.lineBreak k ++ more) = ⟨more, k, true⟩ := by
    rw [seek_lineBreak]
    rcases hmore with rfl | hmore
    · rfl
    · exact seek_of_starts hmore
  unfold nextAt?
  rw [hseek]
  simp

/-- A deeper block ends where the block around it goes on. -/
theorem Follows.deeper (h : Follows column dash rest) {below : Nat} (hlt : column < below) :
    Follows below false rest ∧ nextAt? below rest = none := by
  obtain ⟨k, more, rfl, hk, hmore, -⟩ := h
  refine ⟨⟨k, more, rfl, by omega, hmore, fun heq => by omega⟩, ?_⟩
  rw [nextAt?_lineBreak hmore, if_neg (by omega)]

/-- Behind a value no item follows at the column of its key. -/
theorem Follows.stands_nextAt? (h : Follows column false rest) :
    ∀ next ∈ nextAt? column rest, stands '-' next = false := by
  obtain ⟨k, more, rfl, hk, hmore, hdash⟩ := h
  intro next hnext
  rw [nextAt?_lineBreak hmore] at hnext
  split at hnext
  next heq =>
    obtain rfl := Option.some.inj hnext
    exact (hdash heq.1).resolve_left nofun
  next => cases hnext

end follows

-- ================================================================== pens

namespace Pen

/-- The pen stands behind an indicator at a depth. -/
structure Behind (p : Pen) (depth : Nat) : Prop where
  column : p.column = depth + 1
  blank : p.blank = false
  fresh : p.fresh = true

/-- What the pen writes on its way to a depth. -/
structure Reaches (p : Pen) (depth : Nat) (t : List Char) : Prop where
  wrote : p.Wrote (p.indentTo depth) t
  at_depth : (p.indentTo depth).At depth

variable {p : Pen} {depth : Nat}

/-- Behind an indicator one blank is written before anything else. -/
theorem Behind.gap (h : p.Behind depth) : p.gap = [' '] := by
  unfold Pen.gap
  rw [h.blank]
  rfl

/-- At the start of a line nothing is written before an indicator. -/
theorem At.gap (h : p.At depth) : p.gap = [] := by
  unfold Pen.gap
  rw [h.blank]
  rfl

/-- An indicator at the column of its block is written alone, and the pen is behind it. -/
theorem At.indicator (h : p.At depth) (c : Char) :
    p.Wrote (p.indicator [c] true false true) [c]
      ∧ (p.indicator [c] true false true).Behind depth := by
  have hwrote := p.wrote_indicator [c] false true
  rw [h.gap] at hwrote
  refine ⟨hwrote, ?_, rfl, ?_⟩
  · unfold Pen.indicator
    rw [h.blank]
    show p.column + 1 = depth + 1
    rw [h.column]
  · show (p.fresh && true) = true
    rw [h.fresh]
    rfl

/-- From the end of a line the pen reaches the column by a line break. -/
theorem reaches_of_leave (depth : Nat) (h : p.fresh = false) :
    p.Reaches depth (Json.lineBreak depth) :=
  ⟨(wrote_indentTo_of_leave depth (.inl h)).1, (wrote_indentTo_of_leave depth (.inl h)).2⟩

/-- From behind an indicator the pen reaches the column of an inner block by one blank. -/
theorem Behind.reaches (h : p.Behind depth) : p.Reaches (depth + 2) [' '] := by
  have hcolumn := h.column
  obtain ⟨hwrote, hat⟩ := wrote_indentTo_of_fresh (p := p) (depth + 2) h.fresh
    (by omega) (fun heq => by omega)
  have hone : depth + 2 - p.column = 1 := by omega
  rw [hone] at hwrote
  exact ⟨hwrote, hat⟩

end Pen

-- ================================================================ readers

section readers

variable {fuel column : Nat} {s t rest : List Char}

theorem Starts.ne_nil (h : Starts s) : s ≠ [] := by
  obtain ⟨c, t, rfl, -⟩ := h
  exact List.cons_ne_nil c t

/-- A node on the line of its indicator. -/
theorem readBehind_inline (hs : Starts s) (level : Bool) :
    readBehind (fuel + 1) true level column (' ' :: s)
      = readNode fuel (column + 1) (column + 2) s := by
  rw [readBehind, seek_space, seek_of_starts hs]
  simp only [List.isEmpty_eq_false_iff.mpr hs.ne_nil]
  rfl

/-- A leaf on the line of its key. -/
theorem readBehind_leaf (hs : Starts s) :
    readBehind (fuel + 1) false true column (' ' :: s)
      = readLeaf (column + 1) (column + 2) s := by
  rw [readBehind, seek_space, seek_of_starts hs]
  simp only [List.isEmpty_eq_false_iff.mpr hs.ne_nil]
  rfl

/-- A node on a later line, deeper than its key. -/
theorem readBehind_below (hs : Starts s) (inline level : Bool) {below : Nat}
    (hlt : column < below) :
    readBehind (fuel + 1) inline level column (Json.lineBreak below ++ s)
      = readNode fuel (column + 1) below s := by
  rw [readBehind, seek_lineBreak, seek_of_starts hs]
  simp only [List.isEmpty_eq_false_iff.mpr hs.ne_nil, if_pos hlt]
  rfl

/-- A sequence on a later line, at the column of its key. -/
theorem readBehind_level (hs : Starts s) (hdash : stands '-' s = true) :
    readBehind (fuel + 1) false true column (Json.lineBreak column ++ s)
      = (readItems fuel column s).map fun r => (.arr r.1, r.2) := by
  rw [readBehind, seek_lineBreak, seek_of_starts hs]
  simp only [List.isEmpty_eq_false_iff.mpr hs.ne_nil, Nat.lt_irrefl, hdash, beq_self_eq_true]
  cases readItems fuel column s <;> rfl

end readers

-- ================================================================= items

/-- A value is read back behind an indicator, where `levels` levels of blocks still
start within the width of a line. -/
def ReadsInline (levels : Nat) (j : Json) : Prop :=
  ∀ (place : Place) (depth : Nat) (p : Pen), depth + 2 * levels + 2 < bestWidth →
    p.Behind depth →
    ∃ t, p.Wrote (putNode place (some depth) p j) (' ' :: t)
      ∧ (putNode place (some depth) p j).fresh = false
      ∧ ∀ fuel rest, 2 * t.length ≤ fuel → Follows depth true rest →
          Starts (t ++ rest)
            ∧ readNode fuel (depth + 1) (depth + 2) (t ++ rest) = some (asRead j, rest)

/-- A value is read back behind a key. -/
def ReadsBelow (levels : Nat) (j : Json) : Prop :=
  ∀ (depth : Nat) (p : Pen), depth + 2 * levels + 2 < bestWidth → p.blank = false →
    p.fresh = false →
    ∃ t, p.Wrote (putNode .value (some depth) p j) t
      ∧ (putNode .value (some depth) p j).fresh = false
      ∧ (∀ s, endsToken (t ++ s) = true)
      ∧ ∀ fuel rest, 2 * t.length ≤ fuel → Follows depth false rest →
          readBehind fuel false true depth (t ++ rest) = some (asRead j, rest)

section items

variable {fuel column : Nat} {s tail next rest : List Char} {item : Json}

/-- Behind the last item the sequence ends. -/
theorem readItems_last (h : readBehind fuel true false column s = some (item, tail))
    (htail : ∀ next ∈ nextAt? column tail, stands '-' next = false) :
    readItems (fuel + 1) column ('-' :: s) = some ([item], tail) := by
  rw [readItems, List.tail_cons, h]
  simp only [Option.bind_eq_bind, Option.bind_some]
  cases hnext : nextAt? column tail with
  | none => rfl
  | some next =>
      simp only [htail next hnext]
      rfl

/-- Behind any other item stand more items. -/
theorem readItems_more {items : List Json}
    (h : readBehind fuel true false column s = some (item, tail))
    (htail : nextAt? column tail = some next) (hdash : stands '-' next = true)
    (hmore : readItems fuel column next = some (items, rest)) :
    readItems (fuel + 1) column ('-' :: s) = some (item :: items, rest) := by
  rw [readItems, List.tail_cons, h]
  simp only [Option.bind_eq_bind, Option.bind_some]
  rw [htail]
  simp only [hdash, hmore]
  rfl

end items

/-- The items of a sequence are read back up to a line that is none of them. -/
theorem exists_putItems {levels : Nat} {items : List Json} (hne : items ≠ [])
    (h : ∀ j ∈ items, ReadsInline levels j) {depth : Nat}
    (hfit : depth + 2 * levels + 2 < bestWidth) {p : Pen} {lead : List Char}
    (hp : p.Reaches depth lead) :
    ∃ t, p.Wrote (putItems depth p items) (lead ++ '-' :: ' ' :: t)
      ∧ (putItems depth p items).fresh = false
      ∧ ∀ fuel rest, 2 * (t.length + 2) ≤ fuel + 1 → Follows depth true rest →
          (∀ next ∈ nextAt? depth rest, stands '-' next = false) →
          readItems fuel depth ('-' :: ' ' :: t ++ rest)
            = some (asReadItems items, rest) := by
  induction items generalizing p lead with
  | nil => exact absurd rfl hne
  | cons item items ih =>
      obtain ⟨hindicator, hbehind⟩ := hp.at_depth.indicator '-'
      obtain ⟨t, hwrote, hfresh, hread⟩ := h item (by simp) .item depth _ hfit hbehind
      have hfirst := (hp.wrote.trans hindicator).trans hwrote
      rw [putItems]
      cases items with
      | nil =>
          rw [List.append_assoc] at hfirst
          refine ⟨t, hfirst, hfresh, fun fuel rest hfuel hrest hlast => ?_⟩
          obtain ⟨fuel, rfl⟩ : ∃ n, fuel = n + 2 := ⟨fuel - 2, by omega⟩
          obtain ⟨hstarts, hnode⟩ := hread fuel rest (by omega) hrest
          exact readItems_last ((readBehind_inline hstarts false).trans hnode) hlast
      | cons next items =>
          obtain ⟨u, hmore, hfresh', hread'⟩ := ih (List.cons_ne_nil _ _)
            (fun j hj => h j (by simp [hj])) (Pen.reaches_of_leave depth hfresh)
          refine ⟨t ++ (Json.lineBreak depth ++ '-' :: ' ' :: u), ?_, hfresh',
            fun fuel rest hfuel hrest hlast => ?_⟩
          · have hall := hfirst.trans hmore
            simp only [List.append_assoc, List.cons_append, List.nil_append] at hall ⊢
            exact hall
          · rw [List.length_append, List.length_append, List.length_cons,
              List.length_cons] at hfuel
            obtain ⟨fuel, rfl⟩ : ∃ n, fuel = n + 2 := ⟨fuel - 2, by omega⟩
            have hdash : Starts ('-' :: ' ' :: u ++ rest) := .cons (by decide) _
            have hfollows : Follows depth true
                (Json.lineBreak depth ++ ('-' :: ' ' :: u ++ rest)) :=
              ⟨depth, _, rfl, Nat.le_refl _, .inr hdash, fun _ => .inl rfl⟩
            obtain ⟨hstarts, hnode⟩ := hread fuel _ (by omega) hfollows
            have hitems := hread' (fuel + 1) rest (by omega) hrest hlast
            have hnext : nextAt? depth (Json.lineBreak depth ++ ('-' :: ' ' :: u ++ rest))
                = some ('-' :: ' ' :: u ++ rest) := by
              rw [nextAt?_lineBreak (.inr hdash), if_pos ⟨rfl, hdash.ne_nil⟩]
            have hall := readItems_more ((readBehind_inline hstarts false).trans hnode)
              hnext rfl hitems
            simp only [List.append_assoc, List.cons_append] at hall ⊢
            exact hall

-- ================================================================= fields

/-- A text where a field of a mapping starts: whatever follows, it is taken for a
field and for no item. -/
def FieldStart (depth : Nat) (t : List Char) : Prop :=
  ∀ s, Starts (t ++ s) ∧ stands '-' (t ++ s) = false
    ∧ ∀ floor column, floor ≤ depth + 2 → startsField floor column (t ++ s) = true

theorem FieldStart.length_pos {depth : Nat} {t : List Char} (h : FieldStart depth t) :
    0 < t.length := by
  obtain ⟨c, s, hcs, -⟩ := (h []).1
  rw [List.append_nil] at hcs
  rw [hcs]
  exact Nat.succ_pos _

section field

variable {fuel depth : Nat} {s after rest tail : List Char} {key : String} {value : Json}

/-- A field with a simple key is read as its key and then its value. -/
theorem readField_simple (hstands : stands '?' s = false)
    (hkey : readKey depth s = some (key, rest))
    (hvalue : readBehind fuel false true depth rest = some (value, tail)) :
    readField (fuel + 1) depth s = some ((key, value), tail) := by
  rw [readField, hstands, hkey]
  simp only [Option.bind_eq_bind, Option.bind_some, hvalue]
  rfl

/-- A field with a complex key is read as the scalar behind the question mark
and, from the line of the colon, its value. -/
theorem readField_complex (hs : Starts s)
    (hkey : readLeaf (depth + 1) (depth + 2) s = some (.str key, after))
    (hafter : nextAt? depth after = some (':' :: rest)) (hrest : endsToken rest = true)
    (hvalue : readBehind fuel true true depth rest = some (value, tail)) :
    readField (fuel + 1) depth ('?' :: ' ' :: s) = some ((key, value), tail) := by
  have hstands : stands '?' ('?' :: ' ' :: s) = true := rfl
  have hfound : stands ':' (':' :: rest) = true := hrest
  have hcolon : (some (':' :: rest)).filter (stands ':') = some (':' :: rest) := by
    rw [Option.filter_some, if_pos hfound]
  rw [readField, hstands, List.tail_cons, seek_space, seek_of_starts hs]
  simp only [if_true, Bool.false_eq_true, if_false]
  rw [hkey]
  simp only
  rw [hafter, hcolon]
  simp only [Option.bind_eq_bind, Option.bind_some, List.tail_cons, hvalue]
  rfl

end field

section field

variable {levels : Nat} {key : String} {value : Json} {depth : Nat} {p : Pen}

/-- A short key is read back before its colon. -/
theorem exists_putField_simple (hkey : LegibleKey key.toList)
    (hshort : key.toList.length ≤ keyLimit) (hbelow : ReadsBelow levels value)
    (hfit : depth + 2 * levels + 2 < bestWidth) (hp : p.At depth) :
    ∃ t, p.Wrote (putNode .value (some depth)
          ((putText (depth + 2) false p key.toList).indicator [':'] false false false)
          value) t
      ∧ (putNode .value (some depth)
          ((putText (depth + 2) false p key.toList).indicator [':'] false false false)
          value).fresh = false
      ∧ FieldStart depth t
      ∧ ∀ fuel rest, 2 * t.length ≤ fuel + 2 → Follows depth false rest →
          readField fuel depth (t ++ rest) = some ((key, asRead value), rest) := by
  have hdepth : 0 < depth + 2 := Nat.succ_pos _
  obtain ⟨t, hwrote, -, hleaf⟩ := exists_putText hdepth false p (by omega) key.toList
  rw [hkey.readText_eq] at hleaf
  obtain ⟨u, hvalue, hfresh, hends, hread⟩ := hbelow depth
    ((putText (depth + 2) false p key.toList).indicator [':'] false false false) hfit rfl
    (Bool.and_false _)
  have hpos : 0 < t.length := List.length_pos_of_ne_nil hleaf.1
  have htoken : ∀ s, Starts (t ++ ':' :: (u ++ s)) ∧ stands '-' (t ++ ':' :: (u ++ s)) = false
      ∧ stands '?' (t ++ ':' :: (u ++ s)) = false := fun s =>
    starts_of_readLeaf (hleaf.2 0 0 (':' :: (u ++ s)) (Nat.zero_le _)
      (fun c hc => .inr (Option.some.inj hc).symm) (plainEnd_colon 0 (hends s)))
  refine ⟨t ++ ':' :: u, ?_, hfresh, fun s => ?_, fun fuel rest hfuel hrest => ?_⟩
  · have hall := (hwrote.trans (Pen.wrote_indicator_joined _ [':'] false false)).trans hvalue
    rw [hp.gap, List.nil_append, List.append_assoc] at hall
    exact hall
  · obtain ⟨hstarts, hdash, -⟩ := htoken s
    rw [List.append_assoc]
    exact ⟨hstarts, hdash, fun floor column hfloor =>
      startsField_token hleaf hfloor (hends s) column⟩
  · rw [List.length_append, List.length_cons] at hfuel
    obtain ⟨fuel, rfl⟩ : ∃ n, fuel = n + 1 := ⟨fuel - 1, by omega⟩
    have hfound := readKey_token hkey hshort hwrote hleaf (hends rest) depth
    rw [String.ofList_toList] at hfound
    rw [List.append_assoc]
    exact readField_simple (htoken rest).2.2 hfound (hread fuel rest (by omega) hrest)

/-- Any key is read back behind a question mark. -/
theorem exists_putField_complex (hkey : LegibleKey key.toList)
    (hinline : ReadsInline levels value) (hfit : depth + 2 * levels + 2 < bestWidth)
    (hp : p.At depth) :
    ∃ t, p.Wrote (putNode .value (some depth)
          (((putText (depth + 2) true (p.indicator ['?'] true false true)
            key.toList).indentTo depth).indicator [':'] true false true) value) t
      ∧ (putNode .value (some depth)
          (((putText (depth + 2) true (p.indicator ['?'] true false true)
            key.toList).indentTo depth).indicator [':'] true false true) value).fresh = false
      ∧ FieldStart depth t
      ∧ ∀ fuel rest, 2 * t.length ≤ fuel + 2 → Follows depth false rest →
          readField fuel depth (t ++ rest) = some ((key, asRead value), rest) := by
  obtain ⟨hquestion, hbehind⟩ := hp.indicator '?'
  have hdepth : 0 < depth + 2 := Nat.succ_pos _
  obtain ⟨t, hwrote, hkept, hleaf⟩ := exists_putText hdepth true
    (p.indicator ['?'] true false true) (by omega) key.toList
  rw [hkey.readText_eq, String.ofList_toList] at hleaf
  have hline := Pen.reaches_of_leave depth hkept
  obtain ⟨hcolon, hafter⟩ := hline.at_depth.indicator ':'
  obtain ⟨u, hvalue, hfresh, hread⟩ := hinline .value depth _ hfit hafter
  refine ⟨'?' :: ' ' :: (t ++ (Json.lineBreak depth ++ ':' :: ' ' :: u)), ?_, hfresh,
    fun s => ⟨.cons (by decide) _, rfl, fun floor column _ => rfl⟩,
    fun fuel rest hfuel hrest => ?_⟩
  · have hall := (((hquestion.trans hwrote).trans hline.wrote).trans hcolon).trans hvalue
    rw [hbehind.gap] at hall
    simp only [List.append_assoc, List.cons_append, List.nil_append] at hall
    exact hall
  · simp only [List.length_append, List.length_cons] at hfuel
    obtain ⟨fuel, rfl⟩ : ∃ n, fuel = n + 2 := ⟨fuel - 2, by omega⟩
    obtain ⟨hstarts, hnode⟩ := hread fuel rest (by omega) hrest.relax
    have hmore : Starts (':' :: ' ' :: (u ++ rest)) := .cons (by decide) _
    have hfollows : Follows depth true (Json.lineBreak depth ++ ':' :: ' ' :: (u ++ rest)) :=
      ⟨depth, _, rfl, Nat.le_refl _, .inr hmore, fun _ => .inl rfl⟩
    have hfound := hleaf.2 (depth + 1) (depth + 2) _ (by omega) hfollows.behindScalar
      hfollows.plainEnd
    have hnext : nextAt? depth (Json.lineBreak depth ++ ':' :: ' ' :: (u ++ rest))
        = some (':' :: ' ' :: (u ++ rest)) := by
      rw [nextAt?_lineBreak (.inr hmore), if_pos ⟨rfl, hmore.ne_nil⟩]
    have hvalue : readBehind (fuel + 1) true true depth (' ' :: (u ++ rest))
        = some (asRead value, rest) := (readBehind_inline hstarts true).trans hnode
    have hall := readField_complex (starts_of_readLeaf hfound).1 hfound hnext rfl hvalue
    simp only [List.append_assoc, List.cons_append] at hall ⊢
    exact hall

/-- A field is read back. -/
theorem exists_putField (hkey : LegibleKey key.toList) (hinline : ReadsInline levels value)
    (hbelow : ReadsBelow levels value) (hfit : depth + 2 * levels + 2 < bestWidth)
    {lead : List Char} (hp : p.Reaches depth lead) :
    ∃ t, p.Wrote (putNode .value (some depth) (putKey depth p key.toList) value)
        (lead ++ t)
      ∧ (putNode .value (some depth) (putKey depth p key.toList) value).fresh = false
      ∧ FieldStart depth t
      ∧ ∀ fuel rest, 2 * t.length ≤ fuel + 2 → Follows depth false rest →
          readField fuel depth (t ++ rest) = some ((key, asRead value), rest) := by
  unfold putKey
  simp only
  split
  next hsimple =>
    unfold isSimpleKey at hsimple
    simp only [Bool.and_eq_true, decide_eq_true_eq] at hsimple
    obtain ⟨t, hwrote, hrest⟩ :=
      exists_putField_simple hkey hsimple.1.2 hbelow hfit hp.at_depth
    exact ⟨t, hp.wrote.trans hwrote, hrest⟩
  next =>
    obtain ⟨t, hwrote, hrest⟩ := exists_putField_complex hkey hinline hfit hp.at_depth
    exact ⟨t, hp.wrote.trans hwrote, hrest⟩

end field

section fields

variable {fuel column : Nat} {s tail next rest : List Char} {field : String × Json}

/-- Behind the last field the mapping ends. -/
theorem readFields_last (h : readField fuel column s = some (field, tail))
    (htail : nextAt? column tail = none) :
    readFields (fuel + 1) column s = some ([field], tail) := by
  rw [readFields, h]
  simp only [Option.bind_eq_bind, Option.bind_some, htail]
  rfl

/-- Behind any other field stand more fields. -/
theorem readFields_more {fields : List (String × Json)}
    (h : readField fuel column s = some (field, tail))
    (htail : nextAt? column tail = some next)
    (hmore : readFields fuel column next = some (fields, rest)) :
    readFields (fuel + 1) column s = some (field :: fields, rest) := by
  rw [readFields, h]
  simp only [Option.bind_eq_bind, Option.bind_some, htail, hmore]
  rfl

end fields

/-- The fields of a mapping are read back up to a line at another column. -/
theorem exists_putFields {levels : Nat} {fields : List (String × Json)} (hne : fields ≠ [])
    (h : ∀ e ∈ fields, LegibleKey e.1.toList ∧ ReadsInline levels e.2
      ∧ ReadsBelow levels e.2) {depth : Nat}
    (hfit : depth + 2 * levels + 2 < bestWidth) {p : Pen} {lead : List Char}
    (hp : p.Reaches depth lead) :
    ∃ t, p.Wrote (putFields depth p fields) (lead ++ t)
      ∧ (putFields depth p fields).fresh = false
      ∧ FieldStart depth t
      ∧ ∀ fuel rest, 2 * t.length ≤ fuel + 1 → Follows depth false rest →
          nextAt? depth rest = none →
          readFields fuel depth (t ++ rest) = some (asReadFields fields, rest) := by
  induction fields generalizing p lead with
  | nil => exact absurd rfl hne
  | cons e fields ih =>
      obtain ⟨key, value⟩ := e
      obtain ⟨hkey, hinline, hbelow⟩ := h (key, value) (by simp)
      obtain ⟨t, hwrote, hfresh, hstart, hread⟩ := exists_putField hkey hinline hbelow hfit hp
      have hpos := hstart.length_pos
      rw [putFields]
      cases fields with
      | nil =>
          refine ⟨t, hwrote, hfresh, hstart, fun fuel rest hfuel hrest hlast => ?_⟩
          obtain ⟨fuel, rfl⟩ : ∃ n, fuel = n + 1 := ⟨fuel - 1, by omega⟩
          exact readFields_last (hread fuel rest (by omega) hrest) hlast
      | cons next fields =>
          obtain ⟨u, hmore, hfresh', hstart', hread'⟩ := ih (List.cons_ne_nil _ _)
            (fun e he => h e (by simp [he])) (Pen.reaches_of_leave depth hfresh)
          refine ⟨t ++ (Json.lineBreak depth ++ u), ?_, hfresh', fun s => ?_,
            fun fuel rest hfuel hrest hlast => ?_⟩
          · have hall := hwrote.trans hmore
            rw [List.append_assoc] at hall
            exact hall
          · rw [List.append_assoc]
            exact hstart _
          · rw [List.length_append, List.length_append] at hfuel
            obtain ⟨fuel, rfl⟩ : ∃ n, fuel = n + 1 := ⟨fuel - 1, by omega⟩
            obtain ⟨hstarts, hdash, -⟩ := hstart' rest
            have hfollows : Follows depth false (Json.lineBreak depth ++ (u ++ rest)) :=
              ⟨depth, _, rfl, Nat.le_refl _, .inr hstarts, fun _ => .inr hdash⟩
            have hnext : nextAt? depth (Json.lineBreak depth ++ (u ++ rest))
                = some (u ++ rest) := by
              rw [nextAt?_lineBreak (.inr hstarts), if_pos ⟨rfl, hstarts.ne_nil⟩]
            have hbreak : 0 < (Json.lineBreak depth).length := Nat.succ_pos _
            have hfirst := hread fuel _ (by omega) hfollows
            have hfields := hread' fuel rest (by omega) hrest hlast
            rw [List.append_assoc, List.append_assoc]
            exact readFields_more hfirst hnext hfields

-- ================================================================== values

/-- A value with as many levels of blocks at most, whose keys are legible. -/
inductive Legible : Nat → Json → Prop
  | leaf (levels : Nat) {j : Json} (h : isLeaf j = true) : Legible levels j
  | arr {levels : Nat} {items : List Json} (h : ∀ j ∈ items, Legible levels j) :
      Legible (levels + 1) (.arr items)
  | obj {levels : Nat} {fields : List (String × Json)}
      (hkeys : ∀ e ∈ fields, LegibleKey e.1.toList)
      (h : ∀ e ∈ fields, Legible levels e.2) : Legible (levels + 1) (.obj fields)

section value

variable {levels : Nat}

/-- A leaf is followed by no colon, so it is no key. -/
theorem readNode_leaf {fuel floor column : Nat} {s rest : List Char} {j : Json}
    (h : readLeaf floor column s = some (j, rest))
    (hrest : ∀ c ∈ rest.head?, c = '\n') :
    readNode (fuel + 1) floor column s = some (j, rest) := by
  obtain ⟨-, hdash, hquestion⟩ := starts_of_readLeaf h
  have hcolon : stands ':' (rest.dropWhile isSpace) = false := by
    cases rest with
    | nil => rfl
    | cons c rest =>
        obtain rfl := hrest c rfl
        rfl
  have hfield : startsField floor column s = false := by
    unfold startsField
    rw [hquestion, h]
    exact hcolon
  rw [readNode, hdash, hfield]
  exact h

/-- What follows a node starts with a line break, if there is anything. -/
theorem Follows.head? {column : Nat} {dash : Bool} {rest : List Char}
    (h : Follows column dash rest) : ∀ c ∈ rest.head?, c = '\n' := by
  obtain ⟨k, more, rfl, -⟩ := h
  exact fun c hc => (Option.some.inj hc).symm

/-- A leaf is read back behind an indicator. -/
theorem readsInline_leaf {j : Json} (h : j.Readable) (hleaf : isLeaf j = true) :
    ReadsInline levels j := by
  intro place depth p hfit hp
  have hwidth : depth + 2 < bestWidth := by omega
  obtain ⟨t, hwrote, hfresh, hne, hread⟩ := exists_putLeaf h hleaf place hwidth p
  rw [hp.gap] at hwrote
  refine ⟨t, hwrote, hfresh, fun fuel rest hfuel hrest => ?_⟩
  have hpos := List.length_pos_of_ne_nil hne
  obtain ⟨fuel, rfl⟩ : ∃ n, fuel = n + 1 := ⟨fuel - 1, by omega⟩
  have hfound := hread (depth + 1) (depth + 2) rest (by omega) hrest.behindScalar
    hrest.plainEnd
  exact ⟨(starts_of_readLeaf hfound).1, readNode_leaf hfound hrest.head?⟩

/-- A leaf is read back behind a key, on whose line it stands. -/
theorem readsBelow_leaf {j : Json} (h : j.Readable) (hleaf : isLeaf j = true) :
    ReadsBelow levels j := by
  intro depth p hfit hblank hkept
  have hwidth : depth + 2 < bestWidth := by omega
  obtain ⟨t, hwrote, hfresh, hne, hread⟩ := exists_putLeaf h hleaf .value hwidth p
  have hgap : p.gap = [' '] := by
    unfold Pen.gap
    rw [hblank]
    rfl
  rw [hgap] at hwrote
  refine ⟨' ' :: t, hwrote, hfresh, fun _ => rfl, fun fuel rest hfuel hrest => ?_⟩
  rw [List.length_cons] at hfuel
  obtain ⟨fuel, rfl⟩ : ∃ n, fuel = n + 1 := ⟨fuel - 1, by omega⟩
  have hfound := hread (depth + 1) (depth + 2) rest (by omega) hrest.behindScalar
    hrest.plainEnd
  exact (readBehind_leaf (starts_of_readLeaf hfound).1).trans hfound

/-- Where an item stands, a node is the sequence of the items at its column. -/
theorem readNode_items {fuel floor column : Nat} {s rest : List Char} {items : List Json}
    (hdash : stands '-' s = true) (h : readItems fuel column s = some (items, rest)) :
    readNode (fuel + 1) floor column s = some (.arr items, rest) := by
  rw [readNode, hdash, if_pos rfl, h]
  rfl

/-- A sequence is read back behind an indicator, as soon as its items are. -/
theorem readsInline_items {items : List Json} (hne : items ≠ [])
    (h : ∀ j ∈ items, ReadsInline levels j) : ReadsInline (levels + 1) (.arr items) := by
  intro place depth p hfit hp
  obtain ⟨item, items, rfl⟩ := List.exists_cons_of_ne_nil hne
  have hhere : (if place == .value && !p.fresh then (some depth).getD 0
      else inner (some depth)) = depth + 2 := by
    rw [hp.fresh, Bool.not_true, Bool.and_false]
    rfl
  rw [putNode_items, hhere]
  obtain ⟨t, hwrote, hfresh, hread⟩ := exists_putItems hne h (by omega) hp.reaches
  refine ⟨'-' :: ' ' :: t, hwrote, hfresh, fun fuel rest hfuel hrest => ?_⟩
  rw [List.length_cons, List.length_cons] at hfuel
  obtain ⟨fuel, rfl⟩ : ∃ n, fuel = n + 1 := ⟨fuel - 1, by omega⟩
  obtain ⟨hbelow, hend⟩ := hrest.deeper (Nat.lt_add_of_pos_right (by decide : 0 < 2))
  have hitems := hread fuel rest (by omega) hbelow.relax (fun next hnext => by
    rw [hend] at hnext
    cases hnext)
  exact ⟨.cons (by decide) _, readNode_items rfl hitems⟩

/-- A sequence is read back below a key, at the column of the key. -/
theorem readsBelow_items {items : List Json} (hne : items ≠ [])
    (h : ∀ j ∈ items, ReadsInline levels j) : ReadsBelow (levels + 1) (.arr items) := by
  intro depth p hfit hblank hkept
  obtain ⟨item, items, rfl⟩ := List.exists_cons_of_ne_nil hne
  have hhere : (if Place.value == .value && !p.fresh then (some depth).getD 0
      else inner (some depth)) = depth := by
    rw [hkept]
    rfl
  rw [putNode_items, hhere]
  have hinside : depth + 2 * levels + 2 < bestWidth := by omega
  obtain ⟨t, hwrote, hfresh, hread⟩ :=
    exists_putItems hne h hinside (Pen.reaches_of_leave depth hkept)
  refine ⟨_, hwrote, hfresh, fun _ => rfl, fun fuel rest hfuel hrest => ?_⟩
  rw [List.length_append, List.length_cons, List.length_cons] at hfuel
  obtain ⟨fuel, rfl⟩ : ∃ n, fuel = n + 1 := ⟨fuel - 1, by omega⟩
  have hitems := hread fuel rest (by omega) hrest.relax hrest.stands_nextAt?
  have hstarts : Starts ('-' :: ' ' :: t ++ rest) := .cons (by decide) _
  rw [List.append_assoc]
  refine (readBehind_level hstarts rfl).trans ?_
  rw [hitems]
  rfl

/-- Reading back changes values but no keys. -/
theorem map_fst_asReadFields (fields : List (String × Json)) :
    (asReadFields fields).map Prod.fst = fields.map Prod.fst := by
  induction fields with
  | nil => rfl
  | cons e fields ih =>
      rw [asReadFields, List.map_cons, List.map_cons, ih]

/-- A mapping of distinct keys keeps its fields in their order. -/
theorem readNode_fields {fuel floor column : Nat} {t rest : List Char}
    {fields : List (String × Json)} (hkeys : (fields.map Prod.fst).Nodup)
    (hstart : FieldStart column t) (hfloor : floor ≤ column + 2)
    (h : readFields fuel column (t ++ rest) = some (asReadFields fields, rest)) :
    readNode (fuel + 1) floor column (t ++ rest) = some (asRead (.obj fields), rest) := by
  obtain ⟨-, hdash, hfield⟩ := hstart rest
  have hentries : (OrderedMap.ofList (asReadFields fields)).entries = asReadFields fields :=
    OrderedMap.entries_ofList_of_nodup (by rwa [map_fst_asReadFields])
  rw [readNode, hdash, hfield floor column hfloor, h]
  simp only [Bool.false_eq_true, if_false, if_true, Option.bind_eq_bind, Option.bind_some]
  rw [hentries]
  rfl

/-- A mapping is read back behind an indicator, as soon as its values are in
both places. -/
theorem readsInline_fields {fields : List (String × Json)} (hne : fields ≠ [])
    (hkeys : (fields.map Prod.fst).Nodup)
    (h : ∀ e ∈ fields, LegibleKey e.1.toList ∧ ReadsInline levels e.2
      ∧ ReadsBelow levels e.2) : ReadsInline (levels + 1) (.obj fields) := by
  intro place depth p hfit hp
  have hinner : inner (some depth) = depth + 2 := rfl
  rw [putNode_fields place (some depth) p hne, hinner]
  obtain ⟨t, hwrote, hfresh, hstart, hread⟩ := exists_putFields hne h (by omega) hp.reaches
  refine ⟨t, hwrote, hfresh, fun fuel rest hfuel hrest => ⟨(hstart rest).1, ?_⟩⟩
  have hpos := hstart.length_pos
  obtain ⟨fuel, rfl⟩ : ∃ n, fuel = n + 1 := ⟨fuel - 1, by omega⟩
  obtain ⟨hbelow, hend⟩ := hrest.deeper (Nat.lt_add_of_pos_right (by decide : 0 < 2))
  exact readNode_fields hkeys hstart (by omega) (hread fuel rest (by omega) hbelow hend)

/-- A mapping is read back below a key, in the lines behind it. -/
theorem readsBelow_fields {fields : List (String × Json)} (hne : fields ≠ [])
    (hkeys : (fields.map Prod.fst).Nodup)
    (h : ∀ e ∈ fields, LegibleKey e.1.toList ∧ ReadsInline levels e.2
      ∧ ReadsBelow levels e.2) : ReadsBelow (levels + 1) (.obj fields) := by
  intro depth p hfit hblank hkept
  have hinner : inner (some depth) = depth + 2 := rfl
  rw [putNode_fields .value (some depth) p hne, hinner]
  have hinside : depth + 2 + 2 * levels + 2 < bestWidth := by omega
  obtain ⟨t, hwrote, hfresh, hstart, hread⟩ :=
    exists_putFields hne h hinside (Pen.reaches_of_leave (depth + 2) hkept)
  refine ⟨_, hwrote, hfresh, fun _ => rfl, fun fuel rest hfuel hrest => ?_⟩
  have hbreak : 0 < (Json.lineBreak (depth + 2)).length := Nat.succ_pos _
  have hpos := hstart.length_pos
  rw [List.length_append] at hfuel
  obtain ⟨fuel, rfl⟩ : ∃ n, fuel = n + 2 := ⟨fuel - 2, by omega⟩
  have hdeep : depth < depth + 2 := by omega
  obtain ⟨hbelow, hend⟩ := hrest.deeper hdeep
  rw [List.append_assoc]
  exact (readBehind_below (hstart rest).1 false true hdeep).trans
    (readNode_fields hkeys hstart (by omega) (hread fuel rest (by omega) hbelow hend))

/-- A readable value with legible keys is read back behind an indicator and behind a
key. -/
theorem Legible.readsBack {j : Json} (h : j.Readable) {levels : Nat}
    (hlegible : Legible levels j) : ReadsInline levels j ∧ ReadsBelow levels j := by
  induction hlegible with
  | leaf levels hleaf => exact ⟨readsInline_leaf h hleaf, readsBelow_leaf h hleaf⟩
  | @arr levels items _ ih =>
      cases h with
      | arr hitems =>
          by_cases hnil : items = []
          · subst hnil
            exact ⟨readsInline_leaf (.arr hitems) rfl, readsBelow_leaf (.arr hitems) rfl⟩
          · have hall : ∀ j ∈ items, ReadsInline levels j :=
              fun j hj => (ih j hj (hitems j hj)).1
            exact ⟨readsInline_items hnil hall, readsBelow_items hnil hall⟩
  | @obj levels fields hlegible _ ih =>
      cases h with
      | obj hkeys hfields =>
          by_cases hnil : fields = []
          · subst hnil
            exact ⟨readsInline_leaf (.obj hkeys hfields) rfl,
              readsBelow_leaf (.obj hkeys hfields) rfl⟩
          · have hall : ∀ e ∈ fields, LegibleKey e.1.toList ∧ ReadsInline levels e.2
                ∧ ReadsBelow levels e.2 :=
              fun e he => ⟨hlegible e he, ih e he (hfields e he)⟩
            exact ⟨readsInline_fields hnil hkeys hall, readsBelow_fields hnil hkeys hall⟩

end value

end ApiScaffold.Yaml
