/-
Which texts have a lower-case form of plain letters. Above ASCII one letter
only has an ASCII letter for its whole lower case, the kelvin sign, and that
letter is a `k`. So where the lower-case form of a text is made of other
letters and of hyphens, the text is ASCII, and letter for letter the same but
for case (`map_toLower_of_lower`).

What a letter above ASCII becomes is read off the tables, which are gone
through once for that.
-/
import ApiScaffold.Proofs.Text.Lowered

namespace ApiScaffold

/-- A hyphen, or an ASCII letter in lower case that is the lower case of no
character above ASCII. -/
def isPlainLower (c : Char) : Bool := (c.isLower && c != 'k') || c == '-'

-- ================================================================ ASCII

theorem lowerAfter_of_ascii {cs : List Char} (h : ∀ c ∈ cs, c.toNat < 128)
    (before : List Char) : lowerAfter before cs = cs.map Char.toLower := by
  induction cs generalizing before with
  | nil => rfl
  | cons c cs ih =>
      have hc := h c (List.mem_cons_self ..)
      have hsigma : c ≠ 'Σ' := by
        rintro rfl
        exact absurd hc (by decide)
      unfold lowerAfter
      simp only
      rw [if_neg hsigma, ih (fun d hd => h d (List.mem_cons_of_mem _ hd))]
      unfold lowerChar
      rw [if_pos hc]
      rfl

/-- ASCII texts are put into lower case letter by letter. -/
theorem lower_of_ascii {cs : List Char} (h : ∀ c ∈ cs, c.toNat < 128) :
    lower cs = cs.map Char.toLower :=
  lowerAfter_of_ascii h []

-- ========================================================== above ASCII

theorem isPlainLower_of_above {c : Char} (h : 128 ≤ c.toNat) :
    isPlainLower c = false := by
  have hlower : c.isLower = false := by
    rw [Bool.eq_false_iff]
    intro hlower
    have hspan := toNat_of_isAlphanum (c := c) (by
      unfold Char.isAlphanum Char.isAlpha
      simp [hlower])
    omega
  have hhyphen : c ≠ '-' := by
    rintro rfl
    exact absurd h (by decide)
  unfold isPlainLower
  rw [hlower, beq_eq_false_iff_ne.mpr hhyphen]
  rfl

/-- A code point above ASCII gives no plain letter, nor does a number that
is none. -/
theorem isPlainLower_ofNat {n : Nat} (h : 128 ≤ n) :
    isPlainLower (Char.ofNat n) = false := by
  rcases toNat_ofNat_or n with hn | hnull
  · exact isPlainLower_of_above (by rw [hn]; exact h)
  · rw [hnull]
    decide

/-- Every long form ends above ASCII. -/
theorem exists_of_mem_lowerExpansions :
    ∀ e ∈ lowerExpansions, ∃ n ∈ e.2, 128 ≤ n := by
  decide

theorem isPlainLower_image {n m : Nat} (h : lowerRuns.image? n = some m) :
    isPlainLower (Char.ofNat m) = false := by
  obtain ⟨r, hr, hn, rfl⟩ := CaseRuns.exists_of_image? h
  rcases lowerRuns_apart r hr with rfl | habove
  · simp only at hn
    have hkelvin : n = 0x212A := by omega
    rw [hkelvin]
    decide
  · exact isPlainLower_ofNat (Nat.le_add_right_of_le habove)

/-- The lower case of a character above ASCII is not all plain letters. -/
theorem exists_mem_lowerChar {c : Char} (h : ¬ c.toNat < 128) :
    ∃ d ∈ lowerChar c, isPlainLower d = false := by
  rw [lowerChar_of_above h]
  cases hlong : lowerExpansions.lookup c.toNat with
  | some ns =>
      obtain ⟨n, hn, habove⟩ :=
        exists_of_mem_lowerExpansions (c.toNat, ns) (mem_of_lookup hlong)
      exact ⟨_, List.mem_map_of_mem hn, isPlainLower_ofNat habove⟩
  | none =>
      cases hrun : lowerRuns.image? c.toNat with
      | some m =>
          exact ⟨_, List.mem_singleton_self _, isPlainLower_image hrun⟩
      | none =>
          exact ⟨c, List.mem_singleton_self _,
            isPlainLower_of_above (Nat.le_of_not_lt h)⟩

-- ================================================================= texts

theorem ascii_of_lowerAfter {cs before : List Char}
    (h : ∀ d ∈ lowerAfter before cs, isPlainLower d = true) :
    ∀ c ∈ cs, c.toNat < 128 := by
  induction cs generalizing before with
  | nil => exact fun c hc => by cases hc
  | cons c cs ih =>
      unfold lowerAfter at h
      simp only [List.forall_mem_append] at h
      obtain ⟨hc, hcs⟩ := h
      refine List.forall_mem_cons.mpr ⟨?_, ih hcs⟩
      split at hc
      next =>
        -- neither form of a small sigma is a plain letter
        split at hc
        · exact absurd (hc _ (List.mem_singleton_self _)) (by decide)
        · exact absurd (hc _ (List.mem_singleton_self _)) (by decide)
      next =>
        by_cases hascii : c.toNat < 128
        · exact hascii
        · obtain ⟨d, hd, hplain⟩ := exists_mem_lowerChar hascii
          rw [hc d hd] at hplain
          cases hplain

/-- A text whose lower case is plain letters is ASCII and has those letters
itself, in either case. -/
theorem map_toLower_of_lower {cs key : List Char} (h : lower cs = key)
    (hkey : ∀ d ∈ key, isPlainLower d = true) :
    (∀ c ∈ cs, c.toNat < 128) ∧ cs.map Char.toLower = key := by
  have hplain : ∀ d ∈ lowerAfter [] cs, isPlainLower d = true := by
    rw [← h] at hkey
    exact hkey
  have hascii := ascii_of_lowerAfter hplain
  exact ⟨hascii, by rw [← lower_of_ascii hascii, h]⟩

end ApiScaffold
