/-
Keys. A key of plain characters is written on one line before its colon if it is
short enough, and behind a question mark otherwise. `readKey` finds it before its
colon, for no line break parts the two and its token holds at most two characters
for each of its own and the quotes.
-/
import ApiScaffold.Proofs.Yaml.Leaf

namespace ApiScaffold.Yaml

/-- A character that is neither special nor a line break. -/
def LegibleChar (c : Char) : Prop := isSpecial c = false ∧ isBreak c = false

instance (c : Char) : Decidable (LegibleChar c) :=
  inferInstanceAs (Decidable (_ ∧ _))

/-- A key without special characters and line breaks. -/
def LegibleKey (key : List Char) : Prop := ∀ c ∈ key, LegibleChar c

instance (key : List Char) : Decidable (LegibleKey key) :=
  List.decidableBAll LegibleChar key

/-- Where no two characters are of the two kinds, no neighbours are. -/
theorem hasNeighbours_of_forall {p q : Char → Bool} {s : List Char}
    (h : ∀ c ∈ s, ∀ d ∈ s, (p c && q d) = false) : hasNeighbours p q s = false := by
  induction s with
  | nil => rfl
  | cons c s ih =>
      cases s with
      | nil => rfl
      | cons d s =>
          rw [hasNeighbours, h c (by simp) d (by simp),
            ih fun c hc d hd => h c (.tail _ hc) d (.tail _ hd)]
          rfl

namespace LegibleKey

variable {key : List Char} (h : LegibleKey key)

include h

/-- A legible key needs no double quotes. -/
theorem styleOf_ne : styleOf key ≠ .double := by
  have hsingle : allowsSingle key = true := by
    unfold allowsSingle
    rw [hasNeighbours_of_forall fun c hc d _ => by rw [(h c hc).2, Bool.false_and],
      hasNeighbours_of_forall fun c _ d hd => by rw [(h d hd).2, Bool.and_false],
      List.any_eq_false.mpr fun c hc => by rw [(h c hc).1]; decide]
    rfl
  unfold styleOf
  rw [if_pos hsingle]
  split <;> decide

/-- Such a key is read as it is. -/
theorem readText_eq : readText key = key :=
  readText_eq_self_iff.mpr fun hmem => by cases (h _ hmem).2

end LegibleKey

-- ========================================================= unfolded texts

section unfolded

variable {depth : Nat}

/-- On one line a plain text is written as its runs. -/
theorem wrote_putPlainRuns_unfolded (depth : Nat) (p : Pen) (rs : List (List Char)) :
    p.Wrote (putPlainRuns depth false p rs) rs.flatten := by
  induction rs generalizing p with
  | nil => exact .refl p
  | cons w rs ih =>
      rw [putPlainRuns, Bool.and_false, Bool.false_and]
      exact (p.wrote_put w).trans (ih (p.put w))

/-- On one line a text in single quotes is written as its runs, with quotes doubled. -/
theorem wrote_putSingleRuns_unfolded (depth : Nat) (first : Bool) (p : Pen) {rs : List (List Char)}
    (h : ∀ w ∈ rs, ∀ c ∈ w, isBreak c = false) :
    p.Wrote (putSingleRuns depth false first p rs) (rs.flatten.flatMap doubled) := by
  induction rs generalizing first p with
  | nil => exact .refl p
  | cons w rs ih =>
      have hbreak : w.any isBreak = false := any_isBreak (h w (by simp))
      rw [putSingleRuns, hbreak, Bool.and_false, List.flatten_cons, List.flatMap_append]
      exact (p.wrote_put _).trans (ih false _ fun v hv => h v (by simp [hv]))

/-- Doubling the quotes makes a text twice as long at most. -/
theorem length_flatMap_doubled (s : List Char) :
    (s.flatMap doubled).length ≤ 2 * s.length := by
  induction s with
  | nil => exact Nat.le_refl 0
  | cons c s ih =>
      have hc : (doubled c).length ≤ 2 := by
        unfold doubled
        split
        · exact Nat.le_refl 2
        · exact Nat.le_succ 1
      rw [List.flatMap_cons, List.length_append, List.length_cons]
      omega

theorem eq_of_mem_doubled {c d : Char} (h : d ∈ doubled c) : d = c := by
  unfold doubled at h
  split at h
  next hc =>
    simp only [List.mem_cons, List.not_mem_nil, or_false, or_self] at h
    rw [h, hc]
  next => exact List.mem_singleton.mp h

/-- The token of a key on one line: no break in it, and not much longer than the
key. -/
theorem LegibleKey.token {key : List Char} (h : LegibleKey key) {p : Pen} {t : List Char}
    (ht : p.Wrote (putText depth false p key) (p.gap ++ t)) :
    t.length ≤ 2 * key.length + 2 ∧ ∀ c ∈ t, isBreak c = false := by
  have hruns : (runs key).flatten = key := List.flatten_splitBy _ key
  unfold putText at ht
  split at ht
  next =>
    have hwrote : p.Wrote (putPlain depth false p key) (p.gap ++ key) := by
      have hopen : p.Wrote (if p.blank then p else p.put [' ']) p.gap := by
        unfold Pen.gap
        split
        · exact .refl p
        · exact p.wrote_put [' ']
      have hall := hopen.trans (wrote_putPlainRuns_unfolded depth
        (Pen.midLine _) (runs key))
      rwa [hruns] at hall
    obtain rfl : t = key := List.append_cancel_left (ht.unique hwrote)
    exact ⟨by omega, fun c hc => (h c hc).2⟩
  next =>
    have hwrote : p.Wrote (putSingle depth false p key)
        (p.gap ++ '\'' :: (key.flatMap doubled ++ ['\''])) := by
      have hall := ((p.wrote_indicator ['\''] false false).trans
        (wrote_putSingleRuns_unfolded depth true _ fun w hw c hc =>
          (h c (mem_of_mem_runs hw hc)).2)).trans
        (Pen.wrote_indicator_joined _ ['\''] false false)
      rw [hruns, List.append_assoc, List.append_assoc] at hall
      exact hall
    obtain rfl := List.append_cancel_left (ht.unique hwrote)
    constructor
    · have hsum := length_flatMap_doubled key
      rw [List.length_cons, List.length_append, List.length_singleton]
      omega
    · have hquote : isBreak '\'' = false := rfl
      intro c hc
      rw [List.mem_cons, List.mem_append, List.mem_singleton] at hc
      rcases hc with rfl | hc | rfl
      · exact hquote
      · obtain ⟨d, hd, hc⟩ := List.mem_flatMap.mp hc
        rw [eq_of_mem_doubled hc]
        exact (h d hd).2
      · exact hquote
  next hstyle => exact absurd hstyle h.styleOf_ne

end unfolded

-- ================================================================= keys

/-- A key before its colon is read back. -/
theorem readKey_token {key t rest : List Char} {depth : Nat} (hlegible : LegibleKey key)
    (hkey : key.length ≤ keyLimit) {p : Pen}
    (hwrote : p.Wrote (putText depth false p key) (p.gap ++ t))
    (ht : LeafText depth (.str (String.ofList key)) t)
    (hrest : endsToken rest = true) (column : Nat) :
    readKey column (t ++ ':' :: rest) = some (String.ofList key, rest) := by
  obtain ⟨hlength, hbreak⟩ := hlegible.token hwrote
  have hleaf := ht.2 0 column (':' :: rest) (Nat.zero_le _)
    (fun c hc => .inr (Option.some.inj hc).symm) (plainEnd_colon 0 hrest)
  have hskip : (':' :: rest).dropWhile isSpace = ':' :: rest :=
    List.dropWhile_cons_of_neg (by decide)
  have htoken : (t ++ ':' :: rest).take
      ((t ++ ':' :: rest).length - (':' :: rest).length) = t := by
    refine List.take_left' ?_
    rw [List.length_append]
    omega
  have hshort : t.length ≤ keySpan := by
    have hlimit : keyLimit = 122 := rfl
    have hspan : keySpan = 1024 := rfl
    omega
  have hstands : stands ':' (':' :: rest) = true := hrest
  have hline : t.any isBreak = false := any_isBreak hbreak
  unfold readKey
  rw [hleaf]
  simp only
  rw [hskip, htoken, hstands, decide_eq_true hshort, hline]
  rfl

/-- A field starts where a key stands before its colon. -/
theorem startsField_token {key t rest : List Char} {depth floor : Nat}
    (ht : LeafText depth (.str (String.ofList key)) t) (hfloor : floor ≤ depth)
    (hrest : endsToken rest = true) (column : Nat) :
    startsField floor column (t ++ ':' :: rest) = true := by
  have hleaf := ht.2 floor column (':' :: rest) hfloor
    (fun c hc => .inr (Option.some.inj hc).symm) (plainEnd_colon floor hrest)
  have hskip : (':' :: rest).dropWhile isSpace = ':' :: rest :=
    List.dropWhile_cons_of_neg (by decide)
  have hstands : stands ':' (':' :: rest) = true := hrest
  unfold startsField
  rw [hleaf]
  simp only
  rw [hskip, hstands, Bool.or_true]

end ApiScaffold.Yaml
