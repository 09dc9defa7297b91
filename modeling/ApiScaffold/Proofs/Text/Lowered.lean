/-
Lower case. A character above ASCII becomes its long form, its other form or
nothing else than itself (`mem_lowerChar_of_above`), and all that comes out is
in lower case already, so that lower case twice is lower case once
(`lower_lower`).

The table of other forms is gone through once for that, pair by pair of its
runs: the images of one run are no members of another, since both lie apart or
take turns, as small and capital letters do in the Latin blocks
(`CaseRuns.misses`).
-/
import ApiScaffold.Proofs.Data.Lookup
import ApiScaffold.Proofs.Text.Character
import ApiScaffold.Text.Case

namespace ApiScaffold

-- ================================================================== runs

namespace CaseRuns

variable {runs : CaseRuns} {n m : Nat}

/-- The run that gives a code point its image. -/
theorem exists_of_image? (h : runs.image? n = some m) :
    ∃ r ∈ runs, (r.1 ≤ n ∧ n ≤ r.2.1 ∧ (n - r.1) % r.2.2.1 = 0)
      ∧ m = r.2.2.2 + (n - r.1) := by
  obtain ⟨⟨first, last, step, image⟩, hfind, rfl⟩ := Option.map_eq_some_iff.mp h
  have hrange := List.find?_some hfind
  simp only [Bool.and_eq_true, decide_eq_true_eq, beq_iff_eq] at hrange
  obtain ⟨⟨hfirst, hlast⟩, hstep⟩ := hrange
  exact ⟨_, List.mem_of_find?_eq_some hfind, ⟨hfirst, hlast, hstep⟩, rfl⟩

theorem image?_eq_none_iff : runs.image? n = none
    ↔ ∀ r ∈ runs, ¬ (r.1 ≤ n ∧ n ≤ r.2.1 ∧ (n - r.1) % r.2.2.1 = 0) := by
  unfold image?
  rw [Option.map_eq_none_iff, List.find?_eq_none]
  simp [and_assoc]

/-- Whether the images of the first run keep clear of the members of the second:
they lie apart, or between them. The comparisons are those of `Nat` itself, since
they are made for all pairs of runs. -/
def misses (r q : Nat × Nat × Nat × Nat) : Bool :=
  Nat.blt (r.2.2.2 + (r.2.1 - r.1)) q.1 || Nat.blt q.2.1 r.2.2.2
    || (q.2.2.1 == 2 && (r.2.2.1 == 2 || r.1 == r.2.1)
      && (r.2.2.2 + q.1) % 2 == 1)

theorem not_mem_of_misses {r q : Nat × Nat × Nat × Nat} (h : misses r q = true)
    (hn : r.1 ≤ n ∧ n ≤ r.2.1 ∧ (n - r.1) % r.2.2.1 = 0) :
    ¬ (q.1 ≤ r.2.2.2 + (n - r.1) ∧ r.2.2.2 + (n - r.1) ≤ q.2.1
      ∧ (r.2.2.2 + (n - r.1) - q.1) % q.2.2.1 = 0) := by
  obtain ⟨first, last, step, image⟩ := r
  obtain ⟨first', last', step', image'⟩ := q
  unfold misses at h
  simp only [Bool.or_eq_true, Bool.and_eq_true, Nat.blt_eq, beq_iff_eq] at h hn ⊢
  rcases h with (hbelow | habove) | ⟨⟨rfl, rfl | rfl⟩, hodd⟩
  · omega
  · omega
  · omega
  · omega

end CaseRuns

/-- Every other form lies above ASCII, but for that of the kelvin sign. -/
theorem lowerRuns_apart :
    ∀ r ∈ lowerRuns, r = (0x212A, 0x212A, 1, 0x6B) ∨ 128 ≤ r.2.2.2 := by
  decide +kernel

theorem lowerRuns_miss :
    ∀ r ∈ lowerRuns, ∀ q ∈ lowerRuns, CaseRuns.misses r q = true := by
  have hall : (lowerRuns.all fun r => lowerRuns.all (CaseRuns.misses r)) = true := by
    decide +kernel
  intro r hr
  exact List.all_eq_true.mp (List.all_eq_true.mp hall r hr)

/-- No other form is a character with a long form. -/
theorem lowerRuns_miss_expansions : ∀ r ∈ lowerRuns, ∀ e ∈ lowerExpansions,
    r.2.2.2 + (r.2.1 - r.1) < e.1 ∨ e.1 < r.2.2.2 := by
  decide +kernel

-- ============================================================ characters

/-- What a character above ASCII becomes: a part of its long form, its other
form, or nothing else than itself. -/
theorem mem_lowerChar_of_above {c d : Char} (h : ¬ c.toNat < 128)
    (hd : d ∈ lowerChar c) :
    (∃ e ∈ lowerExpansions, ∃ n ∈ e.2, d = Char.ofNat n)
      ∨ (∃ n, lowerRuns.image? c.toNat = some n ∧ d = Char.ofNat n)
      ∨ (lowerChar c = [c] ∧ d = c) := by
  have hlower := lowerChar_of_above h
  cases hlong : lowerExpansions.lookup c.toNat with
  | some ns =>
      rw [hlower, hlong] at hd
      obtain ⟨n, hn, rfl⟩ := List.mem_map.mp hd
      exact Or.inl ⟨(c.toNat, ns), mem_of_lookup hlong, n, hn, rfl⟩
  | none =>
      cases hrun : lowerRuns.image? c.toNat with
      | some n =>
          rw [hlower, hlong, hrun] at hd
          exact Or.inr (Or.inl ⟨n, rfl, List.mem_singleton.mp hd⟩)
      | none =>
          rw [hlong, hrun] at hlower
          rw [hlower] at hd
          exact Or.inr (Or.inr ⟨hlower, List.mem_singleton.mp hd⟩)

/-- A character that is in lower case. -/
def IsLowered (c : Char) : Prop := lowerChar c = [c]

instance (c : Char) : Decidable (IsLowered c) := inferInstanceAs (Decidable (_ = _))

theorem isLowered_of_image? {n m : Nat} (h : lowerRuns.image? n = some m) :
    IsLowered (Char.ofNat m) := by
  obtain ⟨r, hr, hn, hm⟩ := CaseRuns.exists_of_image? h
  rcases lowerRuns_apart r hr with rfl | habove
  · simp only at hn hm
    have hk : m = 0x6B := by omega
    rw [hk]
    decide
  rcases toNat_ofNat_or m with hcode | hnull
  · have himage : lowerRuns.image? m = none := by
      apply CaseRuns.image?_eq_none_iff.mpr
      intro q hq
      rw [hm]
      exact CaseRuns.not_mem_of_misses (lowerRuns_miss r hr q hq) hn
    have hlong : lowerExpansions.lookup m = none := by
      apply List.lookup_eq_none_iff.mpr
      intro e he
      have hmiss := lowerRuns_miss_expansions r hr e he
      simp only [bne_iff_ne]
      omega
    unfold IsLowered
    rw [lowerChar_of_above (by omega), hcode, hlong, himage]
    rfl
  · rw [hnull]
    decide

/-- Lower case is in lower case. -/
theorem isLowered_of_mem_lowerChar {c d : Char} (hd : d ∈ lowerChar c) :
    IsLowered d := by
  by_cases hascii : c.toNat < 128
  · unfold lowerChar at hd
    rw [if_pos hascii] at hd
    rw [List.mem_singleton.mp hd]
    exact forall_char_below (n := 128) (P := fun c => IsLowered c.toLower)
      (by decide +kernel) c hascii
  rcases mem_lowerChar_of_above hascii hd with
    ⟨e, he, n, hn, rfl⟩ | ⟨n, hn, rfl⟩ | ⟨hc, rfl⟩
  · have hlong : ∀ e ∈ lowerExpansions, ∀ n ∈ e.2, IsLowered (Char.ofNat n) := by
      decide +kernel
    exact hlong e he n hn
  · exact isLowered_of_image? hn
  · exact hc

/-- A character in lower case is no capital. -/
theorem IsLowered.isUpper {c : Char} (h : IsLowered c) : c.isUpper = false := by
  by_cases hascii : c.toNat < 128
  · exact forall_char_below (n := 128)
      (P := fun c => IsLowered c → c.isUpper = false) (by decide +kernel) c hascii h
  · rw [Bool.eq_false_iff]
    intro hupper
    have hspan := toNat_of_isAlphanum (c := c) (by
      unfold Char.isAlphanum Char.isAlpha
      rw [hupper]
      rfl)
    omega

-- ================================================================= texts

/-- A character of the lower case of a text is a final sigma, or comes from a
character of the text. -/
theorem mem_lowerAfter {s before : List Char} {d : Char}
    (hd : d ∈ lowerAfter before s) : d = 'ς' ∨ ∃ c ∈ s, d ∈ lowerChar c := by
  induction s generalizing before with
  | nil => cases hd
  | cons c s ih =>
      unfold lowerAfter at hd
      rcases List.mem_append.mp hd with hd | hd
      · split at hd
        next hsigma =>
          split at hd
          · exact Or.inl (List.mem_singleton.mp hd)
          · rw [List.mem_singleton.mp hd, hsigma]
            exact Or.inr ⟨_, List.mem_cons_self .., by decide +kernel⟩
        next => exact Or.inr ⟨c, List.mem_cons_self .., hd⟩
      · obtain hfinal | ⟨c', hc', hd'⟩ := ih hd
        · exact Or.inl hfinal
        · exact Or.inr ⟨c', List.mem_cons_of_mem _ hc', hd'⟩

theorem isLowered_of_mem_lower {s : List Char} {d : Char} (hd : d ∈ lower s) :
    IsLowered d := by
  rcases mem_lowerAfter hd with rfl | ⟨c, -, hc⟩
  · decide +kernel
  · exact isLowered_of_mem_lowerChar hc

/-- A text in lower case stays as it is; there is no capital sigma in it, so what
stands around makes no difference. -/
theorem lowerAfter_of_isLowered {s : List Char} (h : ∀ c ∈ s, IsLowered c)
    (before : List Char) : lowerAfter before s = s := by
  induction s generalizing before with
  | nil => rfl
  | cons c s ih =>
      obtain ⟨hc, hs⟩ := List.forall_mem_cons.mp h
      have hsigma : c ≠ 'Σ' := by
        rintro rfl
        exact absurd hc (by decide +kernel)
      unfold lowerAfter
      simp only
      rw [if_neg hsigma, hc, ih hs]
      rfl

/-- Lower case twice is lower case once. -/
theorem lower_lower (s : List Char) : lower (lower s) = lower s :=
  lowerAfter_of_isLowered (fun _ => isLowered_of_mem_lower) []

end ApiScaffold
