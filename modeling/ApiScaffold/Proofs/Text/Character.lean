/-
How the character classes lie to each other, by code points. No blank is an identifier
character, and the few characters that mean something to the readers of
this library (quotes, braces, brackets, the strokes and dots of arrows)
are neither. The table of letters and numbers is long, so it is gone
through once, and asked only whether it keeps clear of the few places
where blanks lie.
-/
import ApiScaffold.Text.Blank
import ApiScaffold.Text.Word

namespace ApiScaffold

/-- What holds of each character of a text is checked one by one. Deciding the
quantifier itself may go through all characters there are. -/
theorem forall_mem_of_all {P : Char → Prop} [DecidablePred P] {s : List Char}
    (h : s.all (fun c => decide (P c)) = true) : ∀ c ∈ s, P c :=
  fun c hc => of_decide_eq_true (List.all_eq_true.mp h c hc)

/-- What holds below a code point is checked for each number below it. -/
theorem forall_char_below {P : Char → Prop} {n : Nat}
    (h : ∀ i < n, P (Char.ofNat i)) : ∀ c : Char, c.toNat < n → P c := by
  intro c hc
  have hchar := h c.toNat hc
  rwa [Char.ofNat_toNat] at hchar

/-- A number is the code point of its character, unless it is no code point. -/
theorem toNat_ofNat_or (n : Nat) :
    (Char.ofNat n).toNat = n ∨ Char.ofNat n = '\x00' := by
  by_cases hvalid : n.isValidChar
  · refine Or.inl ?_
    unfold Char.ofNat
    rw [dif_pos hvalid]
    rfl
  · refine Or.inr ?_
    unfold Char.ofNat
    rw [dif_neg hvalid]
    rfl

/-- Letters and digits of ASCII. -/
theorem toNat_of_isAlphanum {c : Char} (h : c.isAlphanum = true) :
    48 ≤ c.toNat ∧ c.toNat ≤ 122 := by
  have hspans : ((decide ('A'.val ≤ c.val ∧ c.val ≤ 'Z'.val)
      || (decide ('a'.val ≤ c.val) && decide (c.val ≤ 'z'.val)))
      || (decide ('0'.val ≤ c.val) && decide (c.val ≤ '9'.val))) = true := h
  simp only [Bool.or_eq_true, Bool.and_eq_true, decide_eq_true_eq,
    UInt32.le_iff_toNat_le, Char.reduceVal, UInt32.reduceToNat] at hspans
  have hval : c.val.toNat = c.toNat := rfl
  omega

/-- Blanks lie in five places among the code points. -/
theorem toNat_of_isBlank {c : Char} (h : isBlank c = true) :
    c.toNat ≤ 32 ∨ (0x85 ≤ c.toNat ∧ c.toNat ≤ 0xA0) ∨ c.toNat = 0x1680
      ∨ (0x2000 ≤ c.toNat ∧ c.toNat ≤ 0x205F) ∨ c.toNat = 0x3000 := by
  unfold isBlank at h
  simp only [Bool.or_eq_true, Bool.and_eq_true, decide_eq_true_eq, beq_iff_eq,
    or_assoc] at h
  rcases h with h | h | h | h | h | h | h | h | h | h | h <;> omega

/-- Whether a range of code points lies above ASCII and between those places. -/
def liesBetweenBlanks (first last : Nat) : Bool :=
  (0xA0 < first && last < 0x1680) || (0x1680 < first && last < 0x2000)
    || (0x205F < first && last < 0x3000) || 0x3000 < first

theorem above_of_liesBetweenBlanks {first last : Nat}
    (h : liesBetweenBlanks first last = true) : 0xA0 < first := by
  unfold liesBetweenBlanks at h
  simp only [Bool.or_eq_true, Bool.and_eq_true, decide_eq_true_eq] at h
  omega

theorem isBlank_of_liesBetweenBlanks {first last : Nat} {c : Char}
    (h : liesBetweenBlanks first last = true)
    (hc : first ≤ c.toNat ∧ c.toNat ≤ last) : isBlank c = false := by
  unfold liesBetweenBlanks at h
  simp only [Bool.or_eq_true, Bool.and_eq_true, decide_eq_true_eq] at h
  rw [Bool.eq_false_iff]
  intro hblank
  have hcode := toNat_of_isBlank hblank
  omega

/-- No letter or number above ASCII lies in one of them. -/
theorem letterNumberRanges_betweenBlanks :
    ∀ r ∈ letterNumberRanges, liesBetweenBlanks r.1 r.2 = true := by
  decide +kernel

/-- No blank is an identifier character. -/
theorem isWord_of_isBlank {c : Char} (h : isBlank c = true) :
    isWord c = false := by
  have hcode := toNat_of_isBlank h
  have hascii : c.isAlphanum = false := by
    rw [Bool.eq_false_iff]
    intro halnum
    have hspan := toNat_of_isAlphanum halnum
    omega
  have htable : letterNumberRanges.contains c.toNat = false := by
    rw [Bool.eq_false_iff]
    intro hmem
    obtain ⟨r, hr, hrange⟩ := CodeRanges.contains_iff.mp hmem
    have hink := isBlank_of_liesBetweenBlanks (letterNumberRanges_betweenBlanks r hr) hrange
    rw [h] at hink
    cases hink
  have hne : c ≠ '_' := by
    rintro rfl
    exact absurd hcode (by decide)
  unfold isWord isAlphanumeric
  rw [htable, hascii, beq_eq_false_iff_ne.mpr hne]
  simp

/-- No identifier character is blank. -/
theorem isBlank_of_isWord {c : Char} (h : isWord c = true) :
    isBlank c = false := by
  cases hb : isBlank c with
  | false => rfl
  | true => rw [isWord_of_isBlank hb] at h; cases h

/-- A blank is no character that is not one. -/
theorem ne_of_isBlank {b d : Char} (hb : isBlank b = true)
    (hd : isBlank d = false) : b ≠ d := by
  intro heq
  rw [heq, hd] at hb
  cases hb

/-- An ASCII digit is an identifier character. -/
theorem isWord_of_isDigit {c : Char} (h : c.isDigit = true) :
    isWord c = true := by
  unfold isWord isAlphanumeric Char.isAlphanum
  simp [h]

/-- An identifier character is none that is not. -/
theorem ne_of_isWord {c d : Char} (h : isWord c = true)
    (hd : isWord d = false) : c ≠ d := by
  intro heq
  rw [heq, hd] at h
  cases h

end ApiScaffold
