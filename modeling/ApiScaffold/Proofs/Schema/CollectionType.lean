/-
Types of collections, as deep as one likes. A collection is written around
the type of its items, in one of five forms, and a `TypeTerm` is a name with
any number of such layers around it.

A reader of types takes one layer off: the item between the brackets has to
be an identifier. So a collection of names is read for what it says, and a
collection of collections is not: its first word does not reach up to the
last brackets (`exists_behind_word`), no item is found (`itemType?_wrap_of`),
and the whole is text. No collection is taken for a primitive, since the
names of those hold no brackets.
-/
import ApiScaffold.Proofs.Schema.TypeSpelling

namespace ApiScaffold

-- =================================================== statement vocabulary

/-- How a collection is written: brackets behind the items, or a word in
front of them and angle brackets around them. -/
inductive CollectionForm where
  | behind
  | around (word : {w // w ∈ collectionWords})

namespace CollectionForm

/-- A collection of the items that a text stands for. -/
def wrap : CollectionForm → List Char → List Char
  | behind, item => item ++ ['[', ']']
  | around word, item => word.1.toList ++ '<' :: (item ++ ['>'])

end CollectionForm

/-- A type: a name, or a collection of items of a type. -/
inductive TypeTerm where
  | name (s : List Char) (h : IsName s)
  | collection (form : CollectionForm) (item : TypeTerm)

namespace TypeTerm

/-- A type as it is written. -/
def text : TypeTerm → List Char
  | name s _ => s
  | collection form item => form.wrap item.text

/-- Whether a type is a name alone. -/
def isName : TypeTerm → Bool
  | name _ _ => true
  | collection _ _ => false

/-- The token of a type. -/
def spelling (t : TypeTerm) : String := String.ofList t.text

/-- What a type means among declared names. -/
def fragment (names : List String) (t : TypeTerm) : Fragment :=
  fragmentOfType names (some t.spelling)

end TypeTerm

-- ================================================================= words

theorem isWord_of_mem_collectionWords : ∀ w ∈ collectionWords,
    w.toList ≠ [] ∧ w.toList.all isWord = true := by
  decide

/-- The words of collections are names. -/
theorem isName_of_mem_collectionWords {w : String} (h : w ∈ collectionWords) :
    IsName w.toList :=
  let ⟨hne, hword⟩ := isWord_of_mem_collectionWords w h
  ⟨hne, List.all_eq_true.mp hword⟩

-- ================================================================= texts

namespace TypeTerm

theorem spelling_eq {t : TypeTerm} {s : String} (h : t.text = s.toList) :
    t.spelling = s := by
  rw [spelling, h, String.ofList_toList]

theorem isTypeToken_text (t : TypeTerm) : IsTypeToken t.text := by
  induction t with
  | name s h => exact ⟨h.ne_nil, fun c hc => isTypeChar_of_isWord (h.word c hc)⟩
  | collection form item ih =>
      cases form with
      | behind =>
          refine ⟨by simp [text, CollectionForm.wrap], ?_⟩
          exact List.forall_mem_append.mpr
            ⟨ih.type, List.all_eq_true.mp (by decide)⟩
      | around word =>
          have hword := isName_of_mem_collectionWords word.2
          refine ⟨by simp [text, CollectionForm.wrap], ?_⟩
          refine List.forall_mem_append.mpr
            ⟨fun c hc => isTypeChar_of_isWord (hword.word c hc), ?_⟩
          refine List.forall_mem_cons.mpr ⟨by decide, ?_⟩
          exact List.forall_mem_append.mpr
            ⟨ih.type, List.all_eq_true.mp (by decide)⟩

/-- Behind the first word of a collection stands a bracket. -/
theorem exists_behind_word (form : CollectionForm) (item : TypeTerm) :
    ∃ c rest, (collection form item).text.dropWhile isWord = c :: rest := by
  have hbracket : ∃ c ∈ (collection form item).text, isWord c = false := by
    cases form with
    | behind => exact ⟨']', by simp [text, CollectionForm.wrap], by decide⟩
    | around word => exact ⟨'>', by simp [text, CollectionForm.wrap], by decide⟩
  obtain ⟨c, hc, hword⟩ := hbracket
  refine List.exists_cons_of_ne_nil fun hnil => ?_
  rw [List.dropWhile_eq_nil_iff.mp hnil c hc] at hword
  cases hword

end TypeTerm

-- ================================================================= items

/-- A name alone is no collection. -/
theorem itemType?_of_isName {s : List Char} (h : IsName s) : itemType? s = none := by
  have hrest : ∀ c ∈ ([] : List Char).head?, isWord c = false := nofun
  have hdrop := h.dropWhile_append hrest
  rw [List.append_nil] at hdrop
  unfold itemType?
  simp [hdrop, bracketedWord?]

/-- The items of a collection of names. -/
theorem itemType?_wrap_name (form : CollectionForm) {s : List Char} (h : IsName s) :
    itemType? (form.wrap s) = some s := by
  cases form with
  | behind =>
      have hrest : ∀ c ∈ ['[', ']'].head?, isWord c = false := by
        rintro c ⟨⟩
        decide
      unfold itemType? CollectionForm.wrap
      simp only [h.takeWhile_append hrest, h.dropWhile_append hrest]
      simp [bracketedWord?, h.ne_nil]
  | around word =>
      have hword := isName_of_mem_collectionWords word.2
      have hopen : ∀ c ∈ ('<' :: (s ++ ['>'])).head?, isWord c = false := by
        rintro c ⟨⟩
        decide
      have hclose : ∀ c ∈ ['>'].head?, isWord c = false := by
        rintro c ⟨⟩
        decide
      have hitem : bracketedWord? ('<' :: (s ++ ['>'])) = some s := by
        unfold bracketedWord?
        simp [h.takeWhile_append hclose, h.dropWhile_append hclose, h.ne_nil]
      unfold itemType? CollectionForm.wrap
      simp only [hword.takeWhile_append hopen, hword.dropWhile_append hopen,
        String.ofList_toList, hitem]
      simp [word.2]

/-- Items that are collections themselves are not found. -/
theorem itemType?_wrap_collection (form inner : CollectionForm) (item : TypeTerm) :
    itemType? (form.wrap (TypeTerm.collection inner item).text) = none := by
  obtain ⟨c, rest, hrest⟩ := TypeTerm.exists_behind_word inner item
  generalize (TypeTerm.collection inner item).text = s at hrest
  rw [← Option.not_isSome_iff_eq_none]
  intro hsome
  have hbehind := dropWhile_of_itemType? hsome
  cases form with
  | behind =>
      have hdrop : (CollectionForm.behind.wrap s).dropWhile isWord
          = c :: (rest ++ ['[', ']']) := by
        simp [CollectionForm.wrap, List.dropWhile_append, hrest]
      rw [hdrop] at hbehind
      rcases hbehind with hshort | ⟨word, hangle, -⟩
      · simpa using congrArg List.length hshort
      · simpa [List.getLast?_cons] using congrArg List.getLast? hangle
  | around word =>
      have hopen : ∀ c ∈ ('<' :: (s ++ ['>'])).head?, isWord c = false := by
        rintro c ⟨⟩
        decide
      have hword := isName_of_mem_collectionWords word.2
      unfold CollectionForm.wrap at hbehind
      simp only [hword.dropWhile_append hopen] at hbehind
      rcases hbehind with hsquare | ⟨w, hangle, hw⟩
      · simp at hsquare
      · -- the item would be an identifier, but it has a bracket
        have hitem : s = w := by simpa using hangle
        rw [hitem, List.dropWhile_eq_nil_iff.mpr hw] at hrest
        cases hrest

-- ============================================================== meanings

/-- A text with a character that is no letter of a primitive name is none. -/
theorem primitive?_eq_none {s : List Char} {c : Char} (hc : c ∈ s)
    (hplain : isPlainLower c.toLower = false) : primitive? (String.ofList s) = none := by
  unfold primitive?
  rw [List.lookup_eq_none_iff]
  intro e he
  have hletters := List.all_eq_true.mp
    (isPlainLower_of_mem_primitiveTypes e.1 (List.mem_map_of_mem he)).1
  rw [bne_iff_ne]
  intro heq
  have hlower : lower s = e.1.toList := by
    rw [← heq, lowerText, String.toList_ofList, String.toList_ofList]
  obtain ⟨-, hmap⟩ := map_toLower_of_lower hlower hletters
  rw [hletters _ (hmap ▸ List.mem_map_of_mem hc)] at hplain
  cases hplain

/-- A type is looked up whole among primitives and declared names, and what
is neither is read by its items. -/
theorem fragmentOfType_of_isTypeToken (names : List String) {s : List Char}
    (h : IsTypeToken s) :
    fragmentOfType names (some (String.ofList s))
      = match itemType? s with
        | none => resolveName names (String.ofList s)
        | some item => match primitive? (String.ofList s) with
          | some f => f
          | none =>
            if names.contains (String.ofList s) then .component (String.ofList s)
            else .array (resolveName names (String.ofList item)) none none := by
  have hink : AllInk s := fun c hc => Member.isBlank_of_isTypeChar (h.type c hc)
  have hempty : ¬ (String.ofList s).isEmpty = true := by
    rw [String.isEmpty_iff, String.ofList_eq_empty_iff]
    exact h.ne_nil
  have htrim : trimText (String.ofList s) = String.ofList s := by
    rw [trimText, String.toList_ofList, trim_of_ink hink]
  unfold fragmentOfType
  simp only
  rw [if_neg hempty, htrim, String.toList_ofList]
  cases itemType? s <;> rfl

namespace TypeTerm

/-- A collection whose spelling is not declared is read by its items. -/
theorem fragment_collection (names : List String) (form : CollectionForm)
    (item : TypeTerm) (hnew : (collection form item).spelling ∉ names) :
    (collection form item).fragment names
      = match itemType? (collection form item).text with
        | none => .text
        | some s => .array (resolveName names (String.ofList s)) none none := by
  have hprimitive : primitive? (collection form item).spelling = none := by
    cases form with
    | behind =>
        exact primitive?_eq_none (c := ']')
          (by simp [text, CollectionForm.wrap]) (by decide)
    | around word =>
        exact primitive?_eq_none (c := '>')
          (by simp [text, CollectionForm.wrap]) (by decide)
  have hcontains : ¬ names.contains (collection form item).spelling = true := by
    rwa [List.contains_iff_mem]
  unfold spelling at hprimitive hcontains
  unfold fragment spelling
  rw [fragmentOfType_of_isTypeToken names (isTypeToken_text _)]
  cases itemType? (collection form item).text with
  | none =>
      simp only
      unfold resolveName
      rw [hprimitive]
      exact if_neg hcontains
  | some s =>
      simp only
      rw [hprimitive]
      exact if_neg hcontains

/-- A name means what it means as the item of a collection. -/
theorem fragment_name (names : List String) {s : List Char} (h : IsName s) :
    (name s h).fragment names = resolveName names (String.ofList s) := by
  have hitem : itemType? (name s h).text = none := itemType?_of_isName h
  unfold fragment spelling
  rw [fragmentOfType_of_isTypeToken names (isTypeToken_text _), hitem]
  rfl

/-- A collection of names is an array of what the name means. -/
theorem fragment_collection_name (names : List String) (form : CollectionForm)
    {s : List Char} (h : IsName s)
    (hnew : (collection form (name s h)).spelling ∉ names) :
    (collection form (name s h)).fragment names
      = .array ((name s h).fragment names) none none := by
  have hitem : itemType? (collection form (name s h)).text = some s :=
    itemType?_wrap_name form h
  rw [fragment_collection names form _ hnew, hitem, fragment_name names h]

/-- A collection of collections is text. -/
theorem fragment_collection_collection (names : List String)
    (form inner : CollectionForm) (item : TypeTerm)
    (hnew : (collection form (collection inner item)).spelling ∉ names) :
    (collection form (collection inner item)).fragment names = .text := by
  have hitem : itemType? (collection form (collection inner item)).text = none :=
    itemType?_wrap_collection form inner item
  rw [fragment_collection names form _ hnew, hitem]

end TypeTerm

-- =========================================================== collections

/-- A collection whose whole spelling is not declared as a name is an array of
what its items mean exactly if the items are of a type that is a name; a
collection of collections, at whatever depth, is text. The same holds of the
JSON that is written for it. -/
theorem collection_is_array_iff (d : Diagram) (form : CollectionForm) (item : TypeTerm)
    (hnew : (TypeTerm.collection form item).spelling ∉ d.declaredNames) :
    ((TypeTerm.collection form item).fragment d.declaredNames
        = .array (item.fragment d.declaredNames) none none
      ↔ item.isName = true)
    ∧ (item.isName = false →
        (TypeTerm.collection form item).fragment d.declaredNames = .text)
    ∧ (((TypeTerm.collection form item).fragment d.declaredNames).toJson
        = .obj [("type", .str "array"),
          ("items", (item.fragment d.declaredNames).toJson)]
      ↔ item.isName = true)
    ∧ (item.isName = false →
        ((TypeTerm.collection form item).fragment d.declaredNames).toJson
          = .obj [("type", .str "string")]) := by
  cases item with
  | name s h =>
      rw [TypeTerm.fragment_collection_name _ form h hnew]
      exact ⟨⟨fun _ => rfl, fun _ => rfl⟩, nofun, ⟨fun _ => rfl, fun _ => rfl⟩, nofun⟩
  | collection inner item =>
      rw [TypeTerm.fragment_collection_collection _ form inner item hnew]
      refine ⟨⟨nofun, nofun⟩, fun _ => rfl, ⟨fun hjson => ?_, nofun⟩, fun _ => rfl⟩
      -- a text is written with one field, an array with two
      injection hjson with hfields
      exact absurd (congrArg List.length hfields) (by simp [Fragment.optionalField])

/-- A set of a declared class, and a list of such sets. -/
theorem collection_is_array_iff_of_set :
    let d : Diagram := { classes := [{ name := "Tag" }] }
    ("Set<Tag>" ∉ d.declaredNames
      ∧ fragmentOfType d.declaredNames (some "Set<Tag>")
        = .array (.component "Tag") none none)
    ∧ "Set<Tag>[]" ∉ d.declaredNames
      ∧ fragmentOfType d.declaredNames (some "Set<Tag>[]") = .text := by
  intro d
  have htag : IsName "Tag".toList := ⟨by decide, List.all_eq_true.mp (by decide)⟩
  have hword : "Set" ∈ collectionWords := by decide
  have hset : (TypeTerm.collection (.around ⟨"Set", hword⟩)
      (.name "Tag".toList htag)).spelling = "Set<Tag>" :=
    TypeTerm.spelling_eq (by decide +revert)
  have hsets : (TypeTerm.collection .behind (.collection
      (.around ⟨"Set", hword⟩) (.name "Tag".toList htag))).spelling = "Set<Tag>[]" :=
    TypeTerm.spelling_eq (by decide +revert)
  have hnew : "Set<Tag>" ∉ d.declaredNames := by decide
  have hnews : "Set<Tag>[]" ∉ d.declaredNames := by decide
  have hitem : (TypeTerm.name "Tag".toList htag).fragment d.declaredNames
      = .component "Tag" := by
    rw [TypeTerm.fragment_name, String.ofList_toList]
    rfl
  have harray := (collection_is_array_iff d _ _ (hset ▸ hnew)).1.mpr rfl
  have htext := (collection_is_array_iff d _ _ (hsets ▸ hnews)).2.1 rfl
  rw [hitem] at harray
  unfold TypeTerm.fragment at harray htext
  rw [hset] at harray
  rw [hsets] at htext
  exact ⟨⟨hnew, harray⟩, hnews, htext⟩

/-- A table of numbers is text, though its rows are arrays of numbers. -/
theorem collection_of_collections_is_text :
    let d : Diagram := {}
    "int[][]" ∉ d.declaredNames
      ∧ fragmentOfType d.declaredNames (some "int[]")
        = .array (.plain "integer" (some "int32")) none none
      ∧ fragmentOfType d.declaredNames (some "int[][]") = .text
      ∧ fragmentOfType d.declaredNames (some "int[][]")
        ≠ .array (fragmentOfType d.declaredNames (some "int[]")) none none := by
  intro d
  have hint : IsName "int".toList := ⟨by decide, List.all_eq_true.mp (by decide)⟩
  have hrow := TypeTerm.fragment_collection_name d.declaredNames .behind hint
    List.not_mem_nil
  have htable := TypeTerm.fragment_collection_collection d.declaredNames
    .behind .behind (.name "int".toList hint) List.not_mem_nil
  rw [TypeTerm.fragment_name, String.ofList_toList] at hrow
  unfold TypeTerm.fragment at hrow htable
  rw [TypeTerm.spelling_eq (s := "int[]") (by rfl)] at hrow
  rw [TypeTerm.spelling_eq (s := "int[][]") (by rfl)] at htable
  refine ⟨List.not_mem_nil, hrow, htable, ?_⟩
  rw [htable]
  exact nofun

end ApiScaffold
