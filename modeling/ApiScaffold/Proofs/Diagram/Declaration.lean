/-
The form of declarations: a keyword, a gap, a name and optionally generics,
and after these optionally a stereotype. A header is a declaration with or
without a stereotype, and nothing else is (`whole?_eq_some_iff`).

What matters about the search for headers is what an earlier declaration
can do to a later one. Stereotypes hold any characters but braces, so one
that is opened early may be closed by the end of a stereotype lines below.
There is no other way: where a header starts before a declaration `d`,
after a blank, and reaches to the end of `d`, `d` has a stereotype and
there is a declaration before `d` with a stereotype still open
(`whole?_append_eq_some`). The proof goes through the parts of the header
one by one: each of them ends before `d`, because it would otherwise have
to end within `d` where nothing ends it, and only the stereotype is left.
-/
import ApiScaffold.Proofs.Diagram.Header
import ApiScaffold.Proofs.Diagram.MemberLine

namespace ApiScaffold

-- ================================================================== forms

/-- Generics with blanks after them, or nothing. -/
def IsGenerics (s : List Char) : Prop :=
  s = [] ∨ ∃ content gap, s = '<' :: (content ++ '>' :: gap)
    ∧ (∀ c ∈ content, Header.isBracket c = false) ∧ AllBlank gap

/-- A stereotype with blanks after it. -/
def IsStereotype (s : List Char) : Prop :=
  ∃ content gap, s = '<' :: '<' :: (content ++ '>' :: '>' :: gap)
    ∧ (∀ c ∈ content, Header.isBrace c = false) ∧ AllBlank gap

/-- A text declares a header without a stereotype: the keyword, blanks and
the name, then maybe blanks and generics. -/
structure Header.Declares (h : Header) (s : List Char) : Prop where
  parts : ∃ gap space generics,
    s = h.keyword.text.toList ++ (gap ++ (h.name ++ (space ++ generics)))
      ∧ AllBlank gap ∧ gap ≠ [] ∧ AllBlank space ∧ IsGenerics generics
  name : IsName h.name

/-- A text leaves the stereotype of a declaration open: the declaration is
followed by two angle brackets and, from there on, no brace. -/
def LeavesStereotypeOpen (h : Header) (s : List Char) : Prop :=
  ∃ front t content, s = front ++ (t ++ '<' :: '<' :: content)
    ∧ (∀ c ∈ front.getLast?, isWord c = false)
    ∧ h.Declares t ∧ ∀ c ∈ content, Header.isBrace c = false

variable {s t u v : List Char} {h : Header}

/-- Generics start with an angle bracket. -/
theorem head_of_isGenerics (hs : IsGenerics s) : ∀ c ∈ s.head?, c = '<' := by
  intro c hc
  rcases hs with rfl | ⟨content, gap, rfl, -⟩
  · cases hc
  · injection hc with hc
    exact hc.symm

/-- A stereotype starts with an angle bracket. -/
theorem head_of_isStereotype (hs : s = [] ∨ IsStereotype s) :
    ∀ c ∈ s.head?, c = '<' := by
  intro c hc
  rcases hs with rfl | ⟨content, gap, rfl, -⟩
  · cases hc
  · injection hc with hc
    exact hc.symm

theorem head?_append_of (P : Char → Prop) (hs : ∀ c ∈ s.head?, P c)
    (ht : ∀ c ∈ t.head?, P c) : ∀ c ∈ (s ++ t).head?, P c := by
  cases s with
  | nil => exact ht
  | cons c s => exact hs

/-- After a name and blanks a declaration goes on with an angle bracket, if
at all. -/
theorem head_after_name {space generics : List Char} (hspace : AllBlank space)
    (hgenerics : IsGenerics generics) (ht : t = [] ∨ IsStereotype t) :
    ∀ c ∈ (space ++ (generics ++ t)).head?, isWord c = false := by
  have hword : isWord '<' = false := by decide
  refine head?_append_of _ (fun c hc => ?_)
    (head?_append_of _ (fun c hc => ?_) fun c hc => ?_)
  · exact isWord_of_isBlank (hspace c (List.mem_of_head? hc))
  · rw [head_of_isGenerics hgenerics c hc]
    exact hword
  · rw [head_of_isStereotype ht c hc]
    exact hword

/-- Nothing is trimmed in front of an angle bracket. -/
theorem trimStart_of_head (hs : ∀ c ∈ s.head?, c = '<') : trimStart s = s := by
  cases s with
  | nil => rfl
  | cons c s =>
      have hc : c = '<' := hs c rfl
      exact trimStart_cons_of_ink (by rw [hc]; decide)

-- =============================================================== readings

/-- The reader of stereotypes takes exactly their form. -/
theorem isStereotype_iff_form : Header.isStereotype s = true ↔ IsStereotype s := by
  rw [Header.isStereotype_iff]
  constructor
  · rintro ⟨rest, inner, rfl, hinner, hall⟩
    obtain ⟨gap, hgap, heq⟩ := exists_trimEnd rest
    have hends : trimEnd rest = inner.reverse ++ ['>', '>'] := by
      have hrev := congrArg List.reverse hinner
      rw [List.reverse_reverse] at hrev
      rw [hrev]
      simp
    refine ⟨inner.reverse, gap, ?_, fun c hc => ?_, hgap⟩
    · rw [heq, hends]
      simp
    · simpa using List.all_eq_true.mp hall c (List.mem_reverse.mp hc)
  · rintro ⟨content, gap, rfl, hcontent, hgap⟩
    refine ⟨_, content.reverse, rfl, ?_, ?_⟩
    · have hsplit : content ++ '>' :: '>' :: gap
          = content ++ ['>'] ++ ['>'] ++ gap := by simp
      rw [hsplit, trimEnd_append_blanks hgap, trimEnd_append_ink (by decide)]
      simp
    · rw [List.all_eq_true]
      intro c hc
      rw [hcontent c (List.mem_reverse.mp hc)]
      rfl

/-- Generics are passed over together with the blanks after them. -/
theorem afterGenerics_append (hs : IsGenerics s) (ht : t = [] ∨ IsStereotype t) :
    Header.afterGenerics (s ++ t) = t := by
  rcases hs with rfl | ⟨content, gap, rfl, hcontent, hgap⟩
  · rcases ht with rfl | ⟨content, gap, rfl, -⟩
    · rfl
    · refine Header.afterGenerics_of_open fun r hr => ?_
      rw [List.dropWhile_cons_of_neg (by decide)] at hr
      injection hr with hr
      exact absurd hr (by decide)
  · have hclosed : (content ++ '>' :: (gap ++ t)).dropWhile
        (!Header.isBracket ·) = '>' :: (gap ++ t) := by
      rw [List.dropWhile_append_of_pos fun c hc => by simp [hcontent c hc],
        List.dropWhile_cons_of_neg (by decide)]
    rw [List.cons_append, List.append_assoc, List.cons_append,
      Header.afterGenerics_of_closed hclosed, trimStart_blanks_append hgap]
    exact trimStart_of_head (head_of_isStereotype ht)

/-- What is passed over as generics has their form. -/
theorem exists_isGenerics (s : List Char) :
    ∃ generics, s = generics ++ Header.afterGenerics s
      ∧ IsGenerics generics := by
  by_cases hs : ∃ r, s = '<' :: r
  · obtain ⟨r, rfl⟩ := hs
    by_cases hclosed : ∃ u, r.dropWhile (!Header.isBracket ·) = '>' :: u
    · obtain ⟨u, hu⟩ := hclosed
      obtain ⟨gap, hgap, heq⟩ := exists_trimStart u
      have hr : r.takeWhile (!Header.isBracket ·) ++ '>' :: u = r := by
        rw [← hu]
        exact List.takeWhile_append_dropWhile
      rw [Header.afterGenerics_of_closed hu]
      refine ⟨'<' :: (r.takeWhile (!Header.isBracket ·) ++ '>' :: gap), ?_,
        Or.inr ⟨_, gap, rfl, fun c hc => ?_, hgap⟩⟩
      · conv => lhs; rw [← hr, heq]
        simp
      · simpa using List.mem_takeWhile_imp hc
    · rw [Header.afterGenerics_of_open fun u hu => hclosed ⟨u, hu⟩]
      exact ⟨[], rfl, Or.inl rfl⟩
  · rw [Header.afterGenerics_of_ne fun r hr => hs ⟨r, hr⟩]
    exact ⟨[], rfl, Or.inl rfl⟩

/-- What ends a header: blanks, then maybe generics and a stereotype. -/
theorem isEnding_iff :
    Header.isEnding s = true ↔ ∃ space generics rest,
      s = space ++ (generics ++ rest) ∧ AllBlank space ∧ IsGenerics generics
        ∧ (rest = [] ∨ IsStereotype rest) := by
  have hrest : ∀ r : List Char,
      (r.isEmpty || Header.isStereotype r) = true ↔ r = [] ∨ IsStereotype r := by
    intro r
    rw [Bool.or_eq_true, List.isEmpty_iff, isStereotype_iff_form]
  unfold Header.isEnding
  simp only
  rw [hrest]
  constructor
  · intro hend
    obtain ⟨space, hspace, hs⟩ := exists_trimStart s
    obtain ⟨generics, hgenerics, hform⟩ := exists_isGenerics (trimStart s)
    exact ⟨space, generics, _, by rw [← hgenerics, ← hs], hspace, hform, hend⟩
  · rintro ⟨space, generics, rest, rfl, hspace, hform, hend⟩
    have hhead : ∀ c ∈ (generics ++ rest).head?, c = '<' :=
      head?_append_of _ (head_of_isGenerics hform) (head_of_isStereotype hend)
    rw [trimStart_blanks_append hspace, trimStart_of_head hhead,
      afterGenerics_append hform hend]
    exact hend

/-- A declaration, with a stereotype or without, is its header. -/
theorem whole?_of_declares (hs : h.Declares s) (ht : t = [] ∨ IsStereotype t) :
    Header.whole? (s ++ t) = some h := by
  obtain ⟨⟨gap, space, generics, rfl, hgap, hne, hspace, hgenerics⟩, hname⟩ := hs
  obtain ⟨b, gap, rfl⟩ := List.exists_cons_of_ne_nil hne
  have hrest : AllBlank gap := fun c hc => hgap c (List.mem_cons_of_mem _ hc)
  have hhead := head_after_name hspace hgenerics ht
  have hstart : trimStart (gap ++ (h.name ++ (space ++ generics)) ++ t)
      = h.name ++ (space ++ (generics ++ t)) := by
    obtain ⟨c, r, hcons, hc⟩ := hname.exists_cons
    rw [List.append_assoc, trimStart_blanks_append hrest, hcons]
    simp only [List.cons_append, List.append_assoc]
    exact trimStart_cons_of_ink (isBlank_of_isWord hc)
  rw [List.append_assoc, Header.whole?_text_append]
  refine Header.ofKeyword?_eq_some.mpr
    ⟨b, gap ++ (h.name ++ (space ++ generics)) ++ t, by simp, hgap b (by simp),
      ?_, hname.ne_nil, ?_⟩
  · rw [hstart, hname.takeWhile_append hhead]
  · rw [hstart, hname.dropWhile_append hhead]
    exact isEnding_iff.mpr ⟨space, generics, t, rfl, hspace, hgenerics, ht⟩

/-- A header is a declaration, with a stereotype or without. -/
theorem exists_declares_of_whole? (hs : Header.whole? s = some h) :
    ∃ t u, s = t ++ u ∧ h.Declares t ∧ (u = [] ∨ IsStereotype u) := by
  obtain ⟨k, -, hk⟩ := List.exists_of_findSome?_eq_some hs
  obtain ⟨c, rest, rfl, hc, rfl, hname, hend⟩ := Header.ofKeyword?_eq_some.mp hk
  obtain ⟨gap, hgap, hrest⟩ := exists_trimStart rest
  obtain ⟨space, generics, u, hu, hspace, hgenerics, hform⟩ := isEnding_iff.mp hend
  have hsplit : trimStart rest
      = (trimStart rest).takeWhile isWord ++ (space ++ (generics ++ u)) := by
    rw [← hu]
    exact List.takeWhile_append_dropWhile.symm
  refine ⟨k.text.toList ++ ((c :: gap) ++ ((trimStart rest).takeWhile isWord
      ++ (space ++ generics))), u, ?_, ⟨⟨c :: gap, space, generics, rfl, ?_,
      List.cons_ne_nil _ _, hspace, hgenerics⟩, ⟨hname, ?_⟩⟩, hform⟩
  · conv => lhs; rw [hrest, hsplit]
    simp
  · exact (allBlank_singleton hc).append hgap
  · exact fun d hd => List.mem_takeWhile_imp hd

/-- Headers are declarations, with a stereotype or without. -/
theorem whole?_eq_some_iff :
    Header.whole? s = some h
      ↔ ∃ t u, s = t ++ u ∧ h.Declares t ∧ (u = [] ∨ IsStereotype u) :=
  ⟨exists_declares_of_whole?, fun ⟨_, _, hs, ht, hu⟩ =>
    hs ▸ whole?_of_declares ht hu⟩

-- ================================================ what no header ends in

/-- No header ends in front of a further word. -/
theorem isEnding_blanks_word {g r : List Char} {c : Char} (hg : AllBlank g)
    (hc : isWord c = true) : Header.isEnding (g ++ c :: r) = false := by
  rw [Bool.eq_false_iff]
  intro hend
  obtain ⟨space, generics, u, hsplit, hspace, hgenerics, hform⟩ :=
    isEnding_iff.mp hend
  have hhead : ∀ d ∈ (generics ++ u).head?, d = '<' :=
    head?_append_of _ (head_of_isGenerics hgenerics) (head_of_isStereotype hform)
  have hstart := congrArg trimStart hsplit
  rw [trimStart_blanks_append hg, trimStart_blanks_append hspace,
    trimStart_cons_of_ink (isBlank_of_isWord hc), trimStart_of_head hhead]
    at hstart
  exact ne_of_isWord hc (by decide) (hhead c (by rw [← hstart]; rfl))

/-- No identifier character is a bracket. -/
theorem isBracket_of_isWord {c : Char} (hc : isWord c = true) :
    Header.isBracket c = false := by
  unfold Header.isBracket Header.isBrace
  simp only [decide_eq_false_iff_not, decide_eq_true_eq, not_or]
  exact ⟨ne_of_isWord hc (by decide), ne_of_isWord hc (by decide),
    ne_of_isWord hc (by decide), ne_of_isWord hc (by decide)⟩

/-- Keywords are made of identifier characters. -/
theorem isWord_keyword (k : Keyword) :
    ∀ c ∈ k.text.toList, isWord c = true := by
  rw [← List.all_eq_true]
  cases k <;> decide

namespace Header.Declares

/-- A declaration starts with an identifier character. -/
theorem exists_cons (hs : h.Declares s) : ∃ c r, s = c :: r ∧ isWord c = true := by
  obtain ⟨⟨gap, space, generics, rfl, -⟩, -⟩ := hs
  cases h.keyword
  · exact ⟨'c', _, rfl, by decide⟩
  · exact ⟨'i', _, rfl, by decide⟩
  · exact ⟨'e', _, rfl, by decide⟩

/-- With its keyword taken for a name a declaration goes on with a word,
which no header does. -/
theorem ne_name_append (hs : h.Declares s) {name space generics u : List Char}
    (hname : IsName name) (hspace : AllBlank space)
    (hgenerics : IsGenerics generics) (hu : u = [] ∨ IsStereotype u) :
    s ++ t ≠ name ++ (space ++ (generics ++ u)) := by
  intro heq
  obtain ⟨⟨gap, space', generics', rfl, hgap, hne, -⟩, hdeclared⟩ := hs
  obtain ⟨b, gap, rfl⟩ := List.exists_cons_of_ne_nil hne
  obtain ⟨c, r, hcons, hc⟩ := hdeclared.exists_cons
  have hkeyword : IsName h.keyword.text.toList :=
    ⟨by cases h.keyword <;> decide, isWord_keyword h.keyword⟩
  have hblank : isWord b = false := isWord_of_isBlank (hgap b (by simp))
  have hdrop := congrArg (List.dropWhile isWord) heq
  rw [hname.dropWhile_append (head_after_name hspace hgenerics hu),
    List.append_assoc, hkeyword.dropWhile_append
      (by intro d hd; injection hd with hd; rw [← hd]; exact hblank),
    hcons, List.append_assoc, List.append_assoc (c :: r)] at hdrop
  change b :: gap ++ c :: (r ++ _) = _ at hdrop
  have hend : isEnding (space ++ (generics ++ u)) = true :=
    isEnding_iff.mpr ⟨_, _, _, rfl, hspace, hgenerics, hu⟩
  rw [← hdrop, isEnding_blanks_word hgap hc] at hend
  cases hend

/-- No closing bracket stands before an opening one. -/
theorem ne_append_close (hs : h.Declares s) (ht : t = [] ∨ IsStereotype t)
    {content r : List Char}
    (hcontent : ∀ c ∈ content, Header.isBracket c = false) :
    s ++ t ≠ content ++ '>' :: r := by
  intro heq
  obtain ⟨⟨gap, space, generics, rfl, hgap, -, hspace, hgenerics⟩, hname⟩ := hs
  have hhead : ∀ c ∈ (generics ++ t).head?, c = '<' :=
    head?_append_of _ (head_of_isGenerics hgenerics) (head_of_isStereotype ht)
  have hplain : (h.keyword.text.toList ++ (gap ++ (h.name ++ space))).find?
      isBracket = none := by
    rw [List.find?_eq_none]
    intro c hc
    rw [Bool.not_eq_true]
    simp only [List.mem_append] at hc
    rcases hc with hc | hc | hc | hc
    · exact isBracket_of_isWord (isWord_keyword _ c hc)
    · exact isBracket_of_isBlank (hgap c hc)
    · exact isBracket_of_isWord (hname.word c hc)
    · exact isBracket_of_isBlank (hspace c hc)
  have hclose : (content ++ '>' :: r).find? isBracket = some '>' := by
    have hnone : content.find? isBracket = none := by
      rw [List.find?_eq_none]
      intro c hc
      rw [hcontent c hc]
      exact Bool.false_ne_true
    rw [List.find?_append, hnone, Option.none_or]
    exact List.find?_cons_of_pos (by decide)
  have hsplit : h.keyword.text.toList
        ++ (gap ++ (h.name ++ (space ++ generics))) ++ t
      = h.keyword.text.toList ++ (gap ++ (h.name ++ space)) ++ (generics ++ t) := by
    simp
  rw [← heq, hsplit, List.find?_append, hplain, Option.none_or] at hclose
  cases hrest : generics ++ t with
  | nil => rw [hrest] at hclose; cases hclose
  | cons c r' =>
      rw [hrest] at hhead hclose
      rw [hhead c rfl, List.find?_cons_of_pos (by decide)] at hclose
      exact absurd hclose (by decide)

/-- There is at most one closing bracket. -/
theorem count_close_le (hs : h.Declares s) : s.count '>' ≤ 1 := by
  obtain ⟨⟨gap, space, generics, rfl, hgap, -, hspace, hgenerics⟩, hname⟩ := hs
  have hblanks : ∀ g, AllBlank g → g.count '>' = 0 := by
    intro g hg
    exact List.count_eq_zero.mpr fun hmem => absurd (hg _ hmem) (by decide)
  have hkeyword : h.keyword.text.toList.count '>' = 0 := by
    cases h.keyword <;> decide
  have hword : h.name.count '>' = 0 :=
    List.count_eq_zero.mpr (hname.not_mem (by decide))
  have hclose : generics.count '>' ≤ 1 := by
    rcases hgenerics with rfl | ⟨content, gap', rfl, hcontent, hgap'⟩
    · simp
    · have hnone : content.count '>' = 0 :=
        List.count_eq_zero.mpr fun hmem => absurd (hcontent _ hmem) (by decide)
      simp [List.count_append, hnone, hblanks _ hgap']
  simp only [List.count_append, hkeyword, hblanks _ hgap, hword,
    hblanks _ hspace]
  omega

end Header.Declares

-- ============================================================ cutting a text

/-- A text that ends in a blank. -/
def BlankEnd (s : List Char) : Prop := ∃ c ∈ s.getLast?, isBlank c = true

/-- What ends in a blank still does without what is in front. -/
theorem BlankEnd.of_append (hs : BlankEnd (s ++ t)) (ht : t ≠ []) :
    BlankEnd t := by
  obtain ⟨c, hc, hblank⟩ := hs
  rw [List.getLast?_append, List.getLast?_eq_some_getLast ht,
    Option.some_or] at hc
  exact ⟨c, by rwa [List.getLast?_eq_some_getLast ht], hblank⟩

/-- No text without blanks ends in one. -/
theorem BlankEnd.not_ink (hs : BlankEnd s) (hink : AllInk s) : False := by
  obtain ⟨c, hc, hblank⟩ := hs
  rw [hink c (List.mem_of_getLast? hc)] at hblank
  cases hblank

/-- A text that ends in a blank holds all of the ink that a text starts
with. -/
theorem BlankEnd.cut_ink (hs : BlankEnd s) (hu : AllInk u)
    (heq : s ++ t = u ++ v) :
    ∃ s', s = u ++ s' ∧ BlankEnd s' ∧ s' ++ t = v := by
  rcases List.append_eq_append_iff.mp heq with ⟨a, rfl, -⟩ | ⟨a, rfl, rfl⟩
  · exact (hs.not_ink fun c hc => hu c (List.mem_append_left _ hc)).elim
  · refine ⟨a, rfl, hs.of_append fun hnil => ?_, rfl⟩
    rw [hnil, List.append_nil] at hs
    exact hs.not_ink hu

/-- Blanks that a text starts with end where it does or before its end,
if ink follows it. -/
theorem BlankEnd.cut_blanks (hs : BlankEnd s) (hu : AllBlank u)
    (ht : ∀ c ∈ t.head?, isBlank c = false) (heq : s ++ t = u ++ v) :
    t = v ∨ ∃ s', s = u ++ s' ∧ BlankEnd s' ∧ s' ++ t = v := by
  rcases List.append_eq_append_iff.mp heq with ⟨a, rfl, rfl⟩ | ⟨a, rfl, rfl⟩
  · cases a with
    | nil => exact Or.inl rfl
    | cons c a =>
        have hink := ht c rfl
        rw [hu c (by simp)] at hink
        cases hink
  · cases a with
    | nil => exact Or.inl rfl
    | cons c a => exact Or.inr ⟨_, rfl, hs.of_append (List.cons_ne_nil _ _), rfl⟩

-- ====================================================== earlier declarations

section earlier

variable {h' : Header} {m w : List Char}

/-- A text that starts with a word and in which no generics end that were
opened before it. -/
structure Solid (m : List Char) : Prop where
  head : ∃ c r, m = c :: r ∧ isWord c = true
  close : ∀ content gap w, (∀ c ∈ content, Header.isBracket c = false) →
    AllBlank gap → (w = [] ∨ IsStereotype w) → m ≠ content ++ '>' :: (gap ++ w)

/-- A solid text starts with no blank. -/
theorem Solid.head_ink (hm : Solid m) : ∀ c ∈ m.head?, isBlank c = false := by
  obtain ⟨c, r, rfl, hc⟩ := hm.head
  rintro d ⟨⟩
  exact isBlank_of_isWord hc

/-- No angle bracket stands where such a text starts. -/
theorem Solid.ne_of_head (hm : Solid m) (hv : ∀ c ∈ v.head?, c = '<') : m ≠ v := by
  rintro rfl
  obtain ⟨c, r, rfl, hc⟩ := hm.head
  exact ne_of_isWord hc (by decide) (hv c rfl)

/-- A declaration is solid, with a stereotype or without. -/
theorem Header.Declares.solid (ht : h'.Declares t) (hu : u = [] ∨ IsStereotype u) :
    Solid (t ++ u) where
  head := by
    obtain ⟨c, r, rfl, hc⟩ := ht.exists_cons
    exact ⟨c, r ++ u, rfl, hc⟩
  close _ _ _ hcontent _ _ := ht.ne_append_close hu hcontent

/-- Generics that start before such a text end before it. -/
theorem BlankEnd.cut_generics (hs : BlankEnd s) (hm : Solid m) (hv : IsGenerics v)
    (hw : w = [] ∨ IsStereotype w) (heq : s ++ m = v ++ w) :
    ∃ s', s = v ++ s' ∧ BlankEnd s' ∧ s' ++ m = w := by
  rcases hv with rfl | ⟨content, gap, rfl, hcontent, hgap⟩
  · exact ⟨s, rfl, hs, heq⟩
  · obtain ⟨s, rfl, hs, heq⟩ := hs.cut_ink (u := ['<'])
      (v := content ++ '>' :: (gap ++ w)) (by decide) (by simpa using heq)
    rcases List.append_eq_append_iff.mp heq with ⟨a, rfl, hrest⟩ | ⟨a, rfl, htail⟩
    · exact absurd hrest (hm.close a gap w
        (fun c hc => hcontent c (List.mem_append_right _ hc)) hgap hw)
    · have hne : a ≠ [] := by
        rintro rfl
        exact hm.close [] gap w (fun c hc => by cases hc) hgap hw htail.symm
      obtain ⟨a, rfl, ha, heq⟩ :=
        (hs.of_append hne).cut_ink (u := ['>']) (by decide) htail.symm
      rcases ha.cut_blanks hgap hm.head_ink heq with hrest | ⟨a, rfl, ha, heq⟩
      · exact absurd hrest (hm.ne_of_head (head_of_isStereotype hw))
      · exact ⟨a, by simp, ha, heq⟩

/-- A header that starts before such a text and goes beyond a blank between
them waits for its name there, or is followed by a stereotype that is left
open. -/
theorem exists_open_of_whole? (hs : BlankEnd s) (hm : Solid m)
    (hsome : Header.whole? (s ++ m) = some h) :
    (∃ gap space generics w, s = h.keyword.text.toList ++ gap
        ∧ m = h.name ++ (space ++ (generics ++ w)) ∧ IsName h.name ∧ AllBlank gap
        ∧ AllBlank space ∧ IsGenerics generics ∧ (w = [] ∨ IsStereotype w))
      ∨ ∃ t s', s = t ++ s' ∧ h.Declares t ∧ BlankEnd s' ∧ IsStereotype (s' ++ m) := by
  obtain ⟨t, w, heq, ⟨⟨gap, space, generics, rfl, hgap, hne, hspace, hgenerics⟩,
    hname⟩, hw⟩ := exists_declares_of_whole? hsome
  simp only [List.append_assoc] at heq
  -- one part after the other is taken off the text before
  obtain ⟨s, rfl, hs, heq⟩ := hs.cut_ink (Header.allInk_text _) heq
  rcases hs.cut_blanks hgap hm.head_ink heq with hrest | ⟨s, rfl, hs, heq⟩
  · rw [hrest] at heq
    exact Or.inl ⟨gap, space, generics, w,
      congrArg (h.keyword.text.toList ++ ·) (List.append_cancel_right heq), hrest,
      hname, hgap, hspace, hgenerics, hw⟩
  obtain ⟨s, rfl, hs, heq⟩ := hs.cut_ink hname.ink heq
  rcases hs.cut_blanks hspace hm.head_ink heq with hrest | ⟨s, rfl, hs, heq⟩
  · exact absurd hrest (hm.ne_of_head
      (head?_append_of _ (head_of_isGenerics hgenerics) (head_of_isStereotype hw)))
  obtain ⟨s, rfl, hs, rfl⟩ := hs.cut_generics hm hgenerics hw heq
  refine Or.inr ⟨h.keyword.text.toList ++ (gap ++ (h.name ++ (space ++ generics))), s,
    by simp, ⟨⟨gap, space, generics, rfl, hgap, hne, hspace, hgenerics⟩, hname⟩, hs,
    hw.resolve_left fun hnil => ?_⟩
  exact absurd (List.append_eq_nil_iff.mp hnil).2 (hm.ne_of_head (v := []) (by simp))

/-- A stereotype that reaches from before a declaration to its end ends in
the stereotype of that declaration. -/
theorem BlankEnd.cut_stereotype (hs : BlankEnd s) (ht : h'.Declares t)
    (hu : u = [] ∨ IsStereotype u) (hw : IsStereotype (s ++ (t ++ u))) :
    IsStereotype u ∧ ∃ content, s = '<' :: '<' :: content
      ∧ ∀ c ∈ content, Header.isBrace c = false := by
  obtain ⟨content, gap, heq, hcontent, hgap⟩ := hw
  obtain ⟨s, rfl, hs, heq⟩ := hs.cut_ink (u := ['<', '<'])
    (v := content ++ '>' :: '>' :: gap) (by decide) heq
  have hplain : ∀ c ∈ s, Header.isBrace c = false := by
    intro c hc
    have hmem : c ∈ content ++ '>' :: '>' :: gap := by
      rw [← heq]
      exact List.mem_append_left _ hc
    simp only [List.mem_append, List.mem_cons] at hmem
    rcases hmem with hc | rfl | rfl | hc
    · exact hcontent c hc
    · decide
    · decide
    · exact Header.isBrace_of_isBlank (hgap c hc)
  refine ⟨hu.resolve_left ?_, s, rfl, hplain⟩
  -- without a stereotype of its own the declaration would end in two
  -- closing brackets
  rintro rfl
  rw [List.append_nil] at heq
  rcases List.append_eq_append_iff.mp heq with ⟨a, -, rfl⟩ | ⟨a, -, hends⟩
  · have hcount := ht.count_close_le
    rw [List.count_append, List.count_cons_self, List.count_cons_self] at hcount
    omega
  · obtain ⟨c, r, rfl, hc⟩ := ht.exists_cons
    have hmem : c ∈ '>' :: '>' :: gap := by simp [hends]
    simp only [List.mem_cons] at hmem
    rcases hmem with rfl | rfl | hmem
    · exact absurd hc (by decide)
    · exact absurd hc (by decide)
    · rw [isWord_of_isBlank (hgap c hmem)] at hc
      cases hc

/-- A header that starts before a declaration, ends with it and goes beyond
a blank between them is that of an earlier declaration whose stereotype is
left open and which the stereotype of the declaration ends. -/
theorem whole?_append_eq_some (hs : BlankEnd s) (ht : h'.Declares t)
    (hu : u = [] ∨ IsStereotype u)
    (hsome : Header.whole? (s ++ (t ++ u)) = some h) :
    IsStereotype u ∧ ∃ t' content, s = t' ++ '<' :: '<' :: content
      ∧ h.Declares t' ∧ ∀ c ∈ content, Header.isBrace c = false := by
  rcases exists_open_of_whole? hs (ht.solid hu) hsome with
    ⟨gap, space, generics, w, -, heq, hname, -, hspace, hgenerics, hw⟩
    | ⟨t', s', rfl, ht', hs', hform⟩
  · exact absurd heq (ht.ne_name_append hname hspace hgenerics hw)
  · obtain ⟨hstereotype, content, rfl, hplain⟩ := hs'.cut_stereotype ht hu hform
    exact ⟨hstereotype, t', content, rfl, ht', hplain⟩

end earlier

-- ======================================================= blanks at the ends

/-- Blanks after a declaration belong to it. -/
theorem Header.Declares.append_blanks {g : List Char} (hs : h.Declares s)
    (hg : AllBlank g) : h.Declares (s ++ g) := by
  obtain ⟨⟨gap, space, generics, rfl, hgap, hne, hspace, hgenerics⟩, hname⟩ := hs
  refine ⟨?_, hname⟩
  rcases hgenerics with rfl | ⟨content, gap', rfl, hcontent, hgap'⟩
  · exact ⟨gap, space ++ g, [], by simp, hgap, hne, hspace.append hg, Or.inl rfl⟩
  · exact ⟨gap, space, '<' :: (content ++ '>' :: (gap' ++ g)), by simp, hgap, hne,
      hspace, Or.inr ⟨content, gap' ++ g, rfl, hcontent, hgap'.append hg⟩⟩

/-- Blanks after a stereotype belong to it. -/
theorem IsStereotype.append_blanks {g : List Char} (hs : IsStereotype s)
    (hg : AllBlank g) : IsStereotype (s ++ g) := by
  obtain ⟨content, gap, rfl, hcontent, hgap⟩ := hs
  exact ⟨content, gap ++ g, by simp, hcontent, hgap.append hg⟩

/-- What leaves a stereotype open does so without the blanks at its end. -/
theorem LeavesStereotypeOpen.of_append_blanks {g : List Char} (hg : AllBlank g)
    (hs : LeavesStereotypeOpen h (s ++ g)) : LeavesStereotypeOpen h s := by
  obtain ⟨front, t, content, heq, hfront, ht, hcontent⟩ := hs
  have hsplit : s ++ g = (front ++ (t ++ ['<', '<'])) ++ content := by
    rw [heq]
    simp
  -- either the blanks start within the content, or they are all of it
  rcases List.append_eq_append_iff.mp hsplit with ⟨a, hopen, rfl⟩ | ⟨a, rfl, rfl⟩
  · have hnil : a = [] := by
      by_contra hne
      have hlast : (s ++ a).getLast? = some '<' := by
        rw [← hopen]
        simp
      rw [List.getLast?_append_of_ne_nil _ hne] at hlast
      have hmem : '<' ∈ a ++ content :=
        List.mem_append_left _ (List.mem_of_getLast? hlast)
      exact absurd (hg _ hmem) (by decide)
    rw [hnil, List.append_nil] at hopen
    exact ⟨front, t, [], hopen.symm, hfront, ht, fun _ hc => by cases hc⟩
  · exact ⟨front, t, a, by simp, hfront, ht, fun c hc =>
      hcontent c (List.mem_append_left _ hc)⟩

/-- What leaves a stereotype open does so behind any text, if no identifier
runs on into it. -/
theorem LeavesStereotypeOpen.append_left
    (hjoin : ∀ c ∈ s.head?, isWord c = false) (hs : LeavesStereotypeOpen h s)
    (y : List Char) : LeavesStereotypeOpen h (y ++ s) := by
  obtain ⟨front, t, content, rfl, hfront, ht, hcontent⟩ := hs
  refine ⟨y ++ front, t, content, by simp, ?_, ht, hcontent⟩
  by_cases hnil : front = []
  · obtain ⟨c, r, rfl, hc⟩ := ht.exists_cons
    rw [hnil, List.nil_append, List.cons_append] at hjoin
    rw [hjoin c rfl] at hc
    cases hc
  · rw [List.getLast?_append_of_ne_nil _ hnil]
    exact hfront

-- ============================================================== the search

/-- What follows the first character of a text that ends in a blank starts a
word, or ends in a blank too. -/
theorem BlankEnd.of_cons {c : Char} {x : List Char} (hx : BlankEnd (c :: x)) :
    x = [] ∧ isWord c = false ∨ BlankEnd x := by
  by_cases hnil : x = []
  · obtain ⟨b, hb, hblank⟩ := hx
    have hbc : c = b := by simpa [hnil] using hb
    exact Or.inl ⟨hnil, isWord_of_isBlank (hbc ▸ hblank)⟩
  · exact Or.inr (BlankEnd.of_append (s := [c]) hx hnil)

/-- Behind a blank the search goes on as in the rest alone, unless it has
found a header that starts before. -/
theorem findFrom?_append {x : List Char} (s : List Char) (joined : Bool)
    (hx : x = [] ∧ joined = false ∨ BlankEnd x) :
    Header.findFrom? joined (x ++ s) = Header.find? s
      ∨ ∃ h' front y, Header.findFrom? joined (x ++ s) = some h' ∧ x = front ++ y
        ∧ y ≠ [] ∧ Header.whole? (y ++ s) = some h' ∧ (front = [] → joined = false)
        ∧ ∀ c ∈ front.getLast?, isWord c = false := by
  induction x generalizing joined with
  | nil =>
      rcases hx with ⟨-, rfl⟩ | ⟨c, hc, -⟩
      · exact Or.inl rfl
      · cases hc
  | cons c x ih =>
      have hblank := hx.resolve_left fun hnil => List.cons_ne_nil _ _ hnil.1
      rw [List.cons_append, Header.findFrom?]
      cases hhere : if joined = true then none
          else Header.whole? (c :: (x ++ s)) with
      | some h' =>
          have hjoined : joined = false := by
            cases joined with
            | false => rfl
            | true => cases hhere
          rw [hjoined] at hhere
          exact Or.inr ⟨h', [], c :: x, rfl, rfl, List.cons_ne_nil _ _, hhere,
            fun _ => hjoined, fun _ hnone => by cases hnone⟩
      | none =>
          refine (ih (isWord c) hblank.of_cons).imp_right ?_
          rintro ⟨h', front, y, hfind, rfl, hy, hwhole, hjoined, hfront⟩
          refine ⟨h', c :: front, y, hfind, rfl, hy, hwhole, fun hnil => ?_,
            fun e he => ?_⟩
          · cases hnil
          · cases front with
            | nil =>
                injection he with he
                rw [← he]
                exact hjoined rfl
            | cons c' front => exact hfront e he

/-- The header of a text that ends with a declaration is that declaration;
or else the declaration has a stereotype and the header is an earlier
declaration whose stereotype is left open. -/
theorem find?_append_declares {x : List Char} (hx : x = [] ∨ BlankEnd x)
    (ht : h.Declares t) (hu : u = [] ∨ IsStereotype u) :
    ∃ h', Header.find? (x ++ (t ++ u)) = some h'
      ∧ (h' = h ∨ IsStereotype u ∧ LeavesStereotypeOpen h' x) := by
  have hown := Header.find?_of_whole? (whole?_of_declares ht hu)
  rcases findFrom?_append (t ++ u) false (hx.imp_left fun hnil => ⟨hnil, rfl⟩)
    with hfind | ⟨h', front, s, hfind, rfl, hs, hwhole, -, hfront⟩
  · exact ⟨h, hfind.trans hown, Or.inl rfl⟩
  · have hblank : BlankEnd s := (hx.resolve_left fun hnil =>
      hs (List.append_eq_nil_iff.mp hnil).2).of_append hs
    obtain ⟨hstereotype, t', content, rfl, ht', hcontent⟩ :=
      whole?_append_eq_some hblank ht hu hwhole
    exact ⟨h', hfind, Or.inr ⟨hstereotype, front, t', content, rfl, hfront, ht',
      hcontent⟩⟩

end ApiScaffold
