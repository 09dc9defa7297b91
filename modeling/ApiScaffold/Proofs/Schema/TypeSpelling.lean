/-
How the types that a builder understands are spelled. Declared names are
identifiers, collections are identifiers with brackets, and a primitive name
in any letter case is made of the letters of a name in the table
(`LetterCase`). All of these are type characters, which is what a member line
keeps of a type, but for one: the hyphen of `date-time`. A type that is
spelled so is cut at the hyphen, and what stands before it is the name of
another primitive.
-/
import ApiScaffold.Proofs.Diagram.MemberLine
import ApiScaffold.Proofs.Text.LetterCase
import ApiScaffold.Schema.TypeToken

namespace ApiScaffold

-- =================================================== statement vocabulary

/-- A type that means something in a diagram: a primitive name in any letter
case, a declared name, or a collection of a name. -/
def Diagram.Understands (d : Diagram) (type : String) : Prop :=
  lowerText type ∈ primitiveTypes.map Prod.fst ∨ type ∈ d.declaredNames
    ∨ (itemType? type.toList).isSome = true

-- =========================================================== collections

theorem isTypeChar_of_isWord {c : Char} (h : isWord c = true) :
    Member.isTypeChar c = true := by
  unfold Member.isTypeChar
  rw [h]
  rfl

/-- A word in angle brackets. -/
theorem eq_of_bracketedWord? {s word : List Char}
    (h : bracketedWord? s = some word) :
    s = '<' :: (word ++ ['>']) ∧ ∀ c ∈ word, isWord c = true := by
  unfold bracketedWord? at h
  split at h
  next rest =>
    simp only at h
    split at h
    next hclosed =>
      injection h with h
      subst h
      simp only [Bool.and_eq_true, beq_iff_eq] at hclosed
      refine ⟨?_, fun c hc => List.mem_takeWhile_imp hc⟩
      rw [← hclosed.2, List.takeWhile_append_dropWhile]
    next => cases h
  next => cases h

/-- What stands behind the first word of a collection. -/
theorem dropWhile_of_itemType? {s : List Char}
    (h : (itemType? s).isSome = true) :
    s.dropWhile isWord = ['[', ']']
      ∨ ∃ word, s.dropWhile isWord = '<' :: (word ++ ['>'])
        ∧ ∀ c ∈ word, isWord c = true := by
  unfold itemType? at h
  simp only at h
  split at h
  next =>
    split at h
    next word hword => exact Or.inr ⟨word, eq_of_bracketedWord? hword⟩
    next =>
      split at h
      next hbrackets => exact Or.inl (beq_iff_eq.mp hbrackets)
      next => cases h
  next =>
    split at h
    next hbrackets =>
      simp only [Bool.and_eq_true, beq_iff_eq] at hbrackets
      exact Or.inl hbrackets.2
    next => cases h

/-- A collection is written in type characters. -/
theorem isTypeToken_of_itemType? {s : List Char}
    (h : (itemType? s).isSome = true) : IsTypeToken s := by
  have hs := List.takeWhile_append_dropWhile (p := isWord) (l := s)
  have hfront : ∀ c ∈ s.takeWhile isWord, Member.isTypeChar c = true :=
    fun c hc => isTypeChar_of_isWord (List.mem_takeWhile_imp hc)
  rw [← hs]
  rcases dropWhile_of_itemType? h with hrest | ⟨word, hrest, hword⟩
  · rw [hrest]
    refine ⟨by simp, List.forall_mem_append.mpr ⟨hfront, ?_⟩⟩
    exact List.all_eq_true.mp (by decide)
  · rw [hrest]
    refine ⟨by simp, List.forall_mem_append.mpr ⟨hfront, ?_⟩⟩
    refine List.forall_mem_cons.mpr ⟨by decide, ?_⟩
    exact List.forall_mem_append.mpr
      ⟨fun c hc => isTypeChar_of_isWord (hword c hc),
        List.all_eq_true.mp (by decide)⟩

-- ============================================================ primitives

/-- The primitive names are plain letters, and one has a hyphen. -/
theorem isPlainLower_of_mem_primitiveTypes :
    ∀ key ∈ primitiveTypes.map Prod.fst,
      key.toList.all isPlainLower = true ∧ key.toList ≠ []
        ∧ (key ≠ "date-time" → '-' ∉ key.toList) := by
  decide +kernel

/-- An ASCII character with a plain lower case is a letter or the hyphen. -/
theorem isTypeChar_of_toLower {c : Char} (hc : c.toNat < 128)
    (hlower : isPlainLower c.toLower = true) (hne : c ≠ '-') :
    Member.isTypeChar c = true := by
  have hall : ∀ c : Char, c.toNat < 128 → isPlainLower c.toLower = true →
      c ≠ '-' → Member.isTypeChar c = true :=
    forall_char_below (by decide +kernel)
  exact hall c hc hlower hne

theorem isTypeToken_of_map_toLower {s key : List Char}
    (hascii : ∀ c ∈ s, c.toNat < 128) (hs : s.map Char.toLower = key)
    (hplain : ∀ c ∈ key, isPlainLower c = true) (hne : key ≠ [])
    (hhyphen : '-' ∉ key) : IsTypeToken s := by
  refine ⟨fun hnil => hne ?_, fun c hc => ?_⟩
  · rw [← hs, hnil]
    rfl
  · have hmem : c.toLower ∈ key := hs ▸ List.mem_map_of_mem hc
    refine isTypeChar_of_toLower (hascii c hc) (hplain _ hmem) ?_
    rintro rfl
    exact hhyphen hmem

/-- A primitive name in any letter case but one is written in type
characters. -/
theorem isTypeToken_of_primitive {type : String}
    (h : lowerText type ∈ primitiveTypes.map Prod.fst)
    (hne : lowerText type ≠ "date-time") : IsTypeToken type.toList := by
  obtain ⟨hplain, hkey, hhyphen⟩ := isPlainLower_of_mem_primitiveTypes _ h
  have hlower : lower type.toList = (lowerText type).toList :=
    String.toList_ofList.symm
  have hletters := List.all_eq_true.mp hplain
  obtain ⟨hascii, hmap⟩ := map_toLower_of_lower hlower hletters
  exact isTypeToken_of_map_toLower hascii hmap hletters hkey (hhyphen hne)

/-- The type `date-time` in any letter case is cut behind the name of
another primitive. -/
theorem exists_cut_of_date_time {type : String}
    (h : lowerText type = "date-time") :
    ∃ front back, type.toList = front ++ '-' :: back ∧ IsTypeToken front
      ∧ IsTypeToken back ∧ lower front = "date".toList := by
  have hlower : lower type.toList = "date-time".toList := by
    rw [← h]
    exact String.toList_ofList.symm
  obtain ⟨hascii, hmap⟩ :=
    map_toLower_of_lower hlower (List.all_eq_true.mp (by decide))
  have hsplit : type.toList.map Char.toLower
      = "date".toList ++ '-' :: "time".toList := hmap
  obtain ⟨front, rest, hfront, hmapFront, hmapRest⟩ :=
    List.map_eq_append_iff.mp hsplit
  obtain ⟨c, back, rfl, hc, hmapBack⟩ := List.map_eq_cons_iff.mp hmapRest
  rw [hfront] at hascii
  simp only [List.forall_mem_append, List.forall_mem_cons] at hascii
  obtain ⟨hasciiFront, hasciiC, hasciiBack⟩ := hascii
  have hhyphen : c = '-' := by
    have hall : ∀ c : Char, c.toNat < 128 → c.toLower = '-' → c = '-' :=
      forall_char_below (by decide +kernel)
    exact hall c hasciiC hc
  refine ⟨front, back, by rw [hfront, hhyphen], ?_, ?_, ?_⟩
  · exact isTypeToken_of_map_toLower hasciiFront hmapFront
      (List.all_eq_true.mp (by decide)) (by decide) (by decide)
  · exact isTypeToken_of_map_toLower hasciiBack hmapBack
      (List.all_eq_true.mp (by decide)) (by decide) (by decide)
  · rw [lower_of_ascii hasciiFront, hmapFront]

theorem Diagram.Understands.isTypeToken {d : Diagram} {type : String}
    (h : d.Understands type) (hnames : ∀ name ∈ d.declaredNames,
      IsName name.toList) (hne : lowerText type ≠ "date-time") :
    IsTypeToken type.toList := by
  rcases h with h | h | h
  · exact isTypeToken_of_primitive h hne
  · have hname := hnames type h
    exact ⟨hname.ne_nil, fun c hc => isTypeChar_of_isWord (hname.word c hc)⟩
  · exact isTypeToken_of_itemType? h

-- ============================================================== meanings

/-- A primitive name without blanks means what the table says. -/
theorem fragmentOfType_of_lookup (names : List String) {type : String}
    {f : Fragment} (hink : AllInk type.toList) (hne : type.toList ≠ [])
    (h : primitiveTypes.lookup (lowerText type) = some f) :
    fragmentOfType names (some type) = f := by
  have hempty : ¬ type.isEmpty = true := by
    rw [String.isEmpty_iff]
    rintro rfl
    exact hne rfl
  have htrim : trimText type = type := by
    unfold trimText
    rw [trim_of_ink hink, String.ofList_toList]
  unfold fragmentOfType primitive?
  simp only
  rw [if_neg hempty, htrim, h]

theorem fragmentOfType_date_time (names : List String) {type : String}
    (h : lowerText type = "date-time") :
    fragmentOfType names (some type) = .plain "string" (some "date-time") := by
  obtain ⟨front, back, heq, hfront, hback, -⟩ := exists_cut_of_date_time h
  refine fragmentOfType_of_lookup names ?_ (by rw [heq]; simp) (by rw [h]; rfl)
  rw [heq]
  refine List.forall_mem_append.mpr ⟨fun c hc => ?_, ?_⟩
  · exact Member.isBlank_of_isTypeChar (hfront.type c hc)
  · refine List.forall_mem_cons.mpr ⟨by decide, fun c hc => ?_⟩
    exact Member.isBlank_of_isTypeChar (hback.type c hc)

theorem fragmentOfType_date (names : List String) {s : List Char}
    (hs : IsTypeToken s) (h : lower s = "date".toList) :
    fragmentOfType names (some (String.ofList s))
      = .plain "string" (some "date") := by
  have hlower : lowerText (String.ofList s) = "date" := by
    unfold lowerText
    rw [String.toList_ofList, h]
    rfl
  refine fragmentOfType_of_lookup names ?_ ?_ (by rw [hlower]; rfl)
  · rw [String.toList_ofList]
    exact fun c hc => Member.isBlank_of_isTypeChar (hs.type c hc)
  · rw [String.toList_ofList]
    exact hs.ne_nil

end ApiScaffold
