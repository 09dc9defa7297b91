/-
What patterns accept. The derivative of a pattern is built by constructors that
simplify where one part settles the result, and each of them accepts what the
plain constructor does.
-/
import ApiScaffold.Text.Pattern

namespace ApiScaffold.Pattern

variable {p q : Pattern} {c : Char} {s t : List Char}

/-- Nothing is accepted by the pattern without texts. -/
theorem accepts_never (s : List Char) : never.accepts s = false := by
  induction s with
  | nil => rfl
  | cons c s ih => exact ih

/-- The pattern that is done accepts the empty text only. -/
theorem eq_nil_of_accepts_done (h : done.accepts s = true) : s = [] := by
  cases s with
  | nil => rfl
  | cons c s =>
      rw [show done.accepts (c :: s) = never.accepts s from rfl, accepts_never] at h
      cases h

theorem accepts_orElse_of_alt
    (h : ∀ p q : Pattern, (alt p q).accepts s = (p.accepts s || q.accepts s))
    (p q : Pattern) : (p.orElse q).accepts s = (p.accepts s || q.accepts s) := by
  unfold orElse
  split
  next => rw [accepts_never, Bool.false_or]
  next => rw [accepts_never, Bool.or_false]
  next => exact h _ _

/-- One of two patterns has to accept. -/
theorem accepts_alt (p q : Pattern) (s : List Char) :
    (alt p q).accepts s = (p.accepts s || q.accepts s) := by
  induction s generalizing p q with
  | nil => rfl
  | cons c s ih => exact accepts_orElse_of_alt ih _ _

/-- The simplified choice accepts what the choice does. -/
theorem accepts_orElse (p q : Pattern) (s : List Char) :
    (p.orElse q).accepts s = (p.accepts s || q.accepts s) :=
  accepts_orElse_of_alt (fun p q => accepts_alt p q s) p q

/-- One of some patterns has to accept. -/
theorem accepts_anyOf (ps : List Pattern) (s : List Char) :
    (anyOf ps).accepts s = ps.any fun p => p.accepts s := by
  induction ps with
  | nil => exact accepts_never s
  | cons p ps ih =>
      rw [List.any_cons, ← ih]
      exact accepts_orElse p (anyOf ps) s

theorem accepts_andThen_of_seq
    (h : p.accepts s = true → (seq p q).accepts (s ++ t) = true)
    (hp : p.accepts s = true) (hq : q.accepts t = true) :
    (p.andThen q).accepts (s ++ t) = true := by
  unfold andThen
  split
  next =>
    rw [accepts_never] at hp
    cases hp
  next =>
    rw [eq_nil_of_accepts_done hp]
    exact hq
  next => exact h hp

/-- Two texts, one behind the other. -/
theorem accepts_seq (hp : p.accepts s = true) (hq : q.accepts t = true) :
    (seq p q).accepts (s ++ t) = true := by
  induction s generalizing p with
  | nil =>
      cases t with
      | nil =>
          show (p.acceptsEmpty && q.acceptsEmpty) = true
          rw [show p.acceptsEmpty = true from hp, show q.acceptsEmpty = true from hq]
          rfl
      | cons c t =>
          have hempty : p.acceptsEmpty = true := hp
          show ((seq p q).derivative c).accepts t = true
          rw [derivative, if_pos hempty, accepts_orElse]
          exact Bool.or_eq_true_iff.mpr (.inr hq)
  | cons c s ih =>
      have hfirst : ((p.derivative c).andThen q).accepts (s ++ t) = true :=
        accepts_andThen_of_seq (fun h => ih h) hp hq
      show ((seq p q).derivative c).accepts (s ++ t) = true
      rw [derivative]
      split
      · rw [accepts_orElse, hfirst, Bool.true_or]
      · exact hfirst

/-- Patterns in a row accept texts in a row. -/
theorem accepts_andThen (hp : p.accepts s = true) (hq : q.accepts t = true) :
    (p.andThen q).accepts (s ++ t) = true :=
  accepts_andThen_of_seq (fun h => accepts_seq h hq) hp hq

/-- Characters that a pattern accepts one by one. -/
theorem accepts_many (h : ∀ c ∈ s, p.accepts [c] = true) :
    (many p).accepts s = true := by
  induction s with
  | nil => rfl
  | cons c s ih =>
      have hfirst : (p.derivative c).accepts [] = true := h c (List.mem_cons_self ..)
      have hrest := ih fun d hd => h d (List.mem_cons_of_mem _ hd)
      exact accepts_andThen hfirst hrest

end ApiScaffold.Pattern
