/-
Names as keys. Whatever is made of identifiers, in whatever letter case, holds no
special character and no line break, so all keys of a document that come from a
diagram are legible: names of components, names of properties, and paths.

The tables of letters and of their lower case are gone through once each, and asked
only whether they stay within the few ranges in which legible characters lie.
-/
import ApiScaffold.Api.Path
import ApiScaffold.Proofs.Api.Naming
import ApiScaffold.Text.Word
import ApiScaffold.Proofs.Yaml.Key

namespace ApiScaffold

open Yaml (LegibleChar LegibleKey)

-- ============================================================ characters

/-- Code points of legible characters. -/
def legibleRanges : CodeRanges :=
  [(0x20, 0x7E), (0xA0, 0x2027), (0x202A, 0xD7FF), (0xE000, 0xFEFE), (0xFF00, 0xFFFD),
   (0x10000, 0x10FFFE)]

/-- The code points of the table are those of legible characters. -/
theorem legibleChar_ofNat {n : Nat} (h : legibleRanges.contains n = true) :
    LegibleChar (Char.ofNat n) := by
  have hcode : (0x20 ≤ n ∧ n ≤ 0x7E) ∨ (0xA0 ≤ n ∧ n ≤ 0x2027) ∨ (0x202A ≤ n ∧ n ≤ 0xD7FF)
      ∨ (0xE000 ≤ n ∧ n ≤ 0xFEFE) ∨ (0xFF00 ≤ n ∧ n ≤ 0xFFFD)
      ∨ (0x10000 ≤ n ∧ n ≤ 0x10FFFE) := by
    simpa [legibleRanges, CodeRanges.contains] using h
  have hvalid : n.isValidChar := by
    unfold Nat.isValidChar
    omega
  have hn : (Char.ofNat n).toNat = n := by
    unfold Char.ofNat
    rw [dif_pos hvalid]
    rfl
  constructor
  · unfold Yaml.isSpecial Yaml.isPlainUnicode
    simp only [Bool.not_eq_false', Bool.or_eq_true, Bool.and_eq_true, decide_eq_true_eq,
      beq_iff_eq, bne_iff_ne, hn]
    omega
  · have hne : ∀ {d : Char}, legibleRanges.contains d.toNat = false → Char.ofNat n ≠ d := by
      rintro d hd rfl
      rw [hn, h] at hd
      cases hd
    unfold Yaml.isBreak
    rw [decide_eq_false (hne (d := '\n') (by decide)),
      decide_eq_false (hne (d := '\u0085') (by decide)),
      decide_eq_false (hne (d := '\u2028') (by decide)),
      decide_eq_false (hne (d := '\u2029') (by decide))]
    rfl

/-- Whether a range lies within legible code points. -/
def inLegible (first last : Nat) : Bool :=
  legibleRanges.any fun (low, high) => low ≤ first && last ≤ high

theorem legibleChar_ofNat_of_inLegible {n first last : Nat}
    (h : inLegible first last = true) (hn : first ≤ n ∧ n ≤ last) :
    LegibleChar (Char.ofNat n) := by
  obtain ⟨r, hr, hrange⟩ := List.any_eq_true.mp h
  rw [Bool.and_eq_true, decide_eq_true_eq, decide_eq_true_eq] at hrange
  exact legibleChar_ofNat (CodeRanges.contains_iff.mpr ⟨r, hr, by omega, by omega⟩)

/-- Every letter and every number above ASCII is legible. -/
theorem letterNumberRanges_legible :
    ∀ r ∈ letterNumberRanges, inLegible r.1 r.2 = true := by
  decide +kernel

/-- Every lower-case form above ASCII is legible. -/
theorem lowerRuns_legible :
    ∀ r ∈ lowerRuns, inLegible r.2.2.2 (r.2.2.2 + (r.2.1 - r.1)) = true := by
  decide +kernel

/-- The characters that lower case makes of others are legible. -/
theorem lowerExpansions_legible :
    ∀ e ∈ lowerExpansions, ∀ n ∈ e.2, LegibleChar (Char.ofNat n) := by
  decide +kernel

/-- Identifier characters are legible. -/
theorem legibleChar_of_isWord {c : Char} (h : isWord c = true) : LegibleChar c := by
  unfold isWord isAlphanumeric at h
  simp only [Bool.or_eq_true, Bool.and_eq_true, beq_iff_eq] at h
  rcases h with rfl | halnum | ⟨-, htable⟩
  · decide
  · have hascii : c.toNat < 128 :=
      (toNat_of_isAlphanum halnum).2.trans_lt (by decide)
    exact forall_char_below (n := 128)
      (P := fun c => c.isAlphanum = true → LegibleChar c) (by decide +kernel) c hascii halnum
  · obtain ⟨r, hr, hrange⟩ := CodeRanges.contains_iff.mp htable
    have hc := legibleChar_ofNat_of_inLegible (letterNumberRanges_legible r hr) hrange
    rwa [Char.ofNat_toNat] at hc

/-- The lower case of a legible character is legible. -/
theorem legibleKey_lowerChar {c : Char} (h : LegibleChar c) : LegibleKey (lowerChar c) := by
  by_cases hascii : c.toNat < 128
  · unfold lowerChar
    rw [if_pos hascii]
    exact List.forall_mem_singleton.mpr (forall_char_below (n := 128)
      (P := fun c => LegibleChar c → LegibleChar c.toLower) (by decide +kernel) c hascii h)
  intro d hd
  rcases mem_lowerChar_of_above hascii hd with
    ⟨e, he, n, hn, rfl⟩ | ⟨n, hn, rfl⟩ | ⟨-, rfl⟩
  · exact lowerExpansions_legible e he n hn
  · obtain ⟨r, hr, hrange, rfl⟩ := CaseRuns.exists_of_image? hn
    exact legibleChar_ofNat_of_inLegible (lowerRuns_legible r hr) (by omega)
  · exact h

-- ================================================================= texts

section key

variable {s : List Char}

/-- A name is a legible key. -/
theorem legibleKey_of_isWord (h : ∀ c ∈ s, isWord c = true) : LegibleKey s :=
  fun c hc => legibleChar_of_isWord (h c hc)

/-- A legible key stays legible in lower case. -/
theorem legibleKey_lower (h : LegibleKey s) : LegibleKey (lower s) := by
  intro d hd
  rcases mem_lowerAfter hd with rfl | ⟨c, hc, hd⟩
  · decide
  · exact legibleKey_lowerChar (h c hc) d hd

end key

section name

variable {name : String} (h : LegibleKey name.toList)

include h

/-- The segment of a resource in its paths is legible. -/
theorem legibleKey_pathSegment : LegibleKey (pathSegment name).toList := by
  have hends : LegibleKey ['-', 'ς', 'i', 'e', 's'] := by decide
  intro c hc
  rcases mem_pathSegment hc with hc | ⟨d, hd, -, hc⟩
  · exact hends c hc
  · exact legibleKey_lowerChar (h d hd) c hc

/-- The name of a property that refers to a declaration is legible. -/
theorem legibleKey_propertyName : LegibleKey (propertyName name).toList := by
  unfold propertyName
  split
  next => exact List.forall_mem_nil _
  next c rest heq =>
    rw [heq] at h
    obtain ⟨hc, hrest⟩ := List.forall_mem_cons.mp h
    rw [String.toList_ofList]
    exact List.forall_mem_append.mpr
      ⟨legibleKey_lower (List.forall_mem_singleton.mpr hc), hrest⟩

/-- Both paths of a resource are legible. -/
theorem legibleKey_of_mem_crudPaths {errorRef : String} {e : String × PathItem}
    (he : e ∈ crudPaths name (pathSegment name) errorRef) : LegibleKey e.1.toList := by
  have hsegment := legibleKey_pathSegment h
  have hslash : LegibleKey "/".toList := by decide
  have hitem : LegibleKey "/\x7bid\x7d".toList := by decide
  simp only [crudPaths, List.mem_cons, List.not_mem_nil, or_false] at he
  rcases he with rfl | rfl
  · show LegibleKey (collectionPath (pathSegment name)).toList
    unfold collectionPath
    rw [String.toList_append]
    exact List.forall_mem_append.mpr ⟨hslash, hsegment⟩
  · show LegibleKey (itemPath (pathSegment name)).toList
    unfold itemPath
    rw [String.toList_append, String.toList_append]
    exact List.forall_mem_append.mpr
      ⟨List.forall_mem_append.mpr ⟨hslash, hsegment⟩, hitem⟩

end name

end ApiScaffold
