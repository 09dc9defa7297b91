/-
The search for a header does not see the widths of blanks. A header is
made of words and brackets with gaps between them, and every step of its
reading either takes characters that are no blanks, passes over a gap, or
asks about brackets; so respaced texts have the same header
(`find?_respaced`), and blanks in front make no difference
(`find?_trimStart`).
-/
import ApiScaffold.Diagram.Header
import ApiScaffold.Proofs.Text.Character
import ApiScaffold.Proofs.Text.Respaced

namespace ApiScaffold.Header

variable {s t : List Char}

/-- No blank is a bracket. -/
theorem isBracket_of_isBlank {c : Char} (h : isBlank c = true) :
    isBracket c = false := by
  cases hb : isBracket c with
  | false => rfl
  | true =>
      unfold isBracket isBrace at hb
      simp only [decide_eq_true_eq] at hb
      rcases hb with rfl | rfl | rfl | rfl <;> exact absurd h (by decide)

theorem isBrace_of_isBlank {c : Char} (h : isBlank c = true) :
    isBrace c = false := by
  have hb := isBracket_of_isBlank h
  unfold isBracket at hb
  simp only [decide_eq_false_iff_not, not_or, Bool.not_eq_true] at hb
  exact hb.2.2

theorem allInk_text (k : Keyword) : AllInk k.text.toList := by
  cases k <;> decide

-- ================================================================ endings

/-- Closed generics are passed over with the blanks behind them. -/
theorem afterGenerics_of_closed {rest r : List Char}
    (h : rest.dropWhile (!isBracket ·) = '>' :: r) :
    afterGenerics ('<' :: rest) = trimStart r := by
  unfold afterGenerics
  simp only [h]

/-- An opening bracket that is never closed starts no generics. -/
theorem afterGenerics_of_open {rest : List Char}
    (h : ∀ r, rest.dropWhile (!isBracket ·) ≠ '>' :: r) :
    afterGenerics ('<' :: rest) = '<' :: rest := by
  unfold afterGenerics
  simp only

/-- Without an opening bracket there are no generics. -/
theorem afterGenerics_of_ne (h : ∀ r, s ≠ '<' :: r) : afterGenerics s = s := by
  unfold afterGenerics
  split
  next r => exact absurd rfl (h r)
  next => rfl

/-- Behind generics respaced texts are respaced. -/
theorem afterGenerics_respaced (h : Respaced s t) :
    Respaced (afterGenerics s) (afterGenerics t) := by
  have hblank : ∀ c, isBlank c = true → (!isBracket c) = true := by
    intro c hc
    rw [isBracket_of_isBlank hc]
    rfl
  by_cases hs : ∃ r, s = '<' :: r
  · obtain ⟨r, rfl⟩ := hs
    obtain ⟨r', rfl, hr⟩ := h.cons_of_ink (by decide)
    have hrest := hr.dropWhile_of_blanks hblank
    by_cases hclosed : ∃ u, r.dropWhile (!isBracket ·) = '>' :: u
    · obtain ⟨u, hu⟩ := hclosed
      rw [hu] at hrest
      obtain ⟨u', hu', hafter⟩ := hrest.cons_of_ink (by decide)
      rw [afterGenerics_of_closed hu, afterGenerics_of_closed hu']
      exact hafter.trimStart
    · have hclosed' : ∀ u, r'.dropWhile (!isBracket ·) ≠ '>' :: u := by
        intro u hu
        rw [hu] at hrest
        obtain ⟨u', hu', -⟩ := hrest.symm.cons_of_ink (by decide)
        exact hclosed ⟨u', hu'⟩
      rw [afterGenerics_of_open fun u hu => hclosed ⟨u, hu⟩,
        afterGenerics_of_open hclosed']
      exact h
  · have ht : ∀ r, t ≠ '<' :: r := by
      intro r hr
      obtain ⟨r', hr', -⟩ := (hr ▸ h.symm).cons_of_ink (by decide)
      exact hs ⟨r', hr'⟩
    rw [afterGenerics_of_ne fun r hr => hs ⟨r, hr⟩, afterGenerics_of_ne ht]
    exact h

/-- A stereotype: two angle brackets, no brace, two angle brackets and
blanks. -/
theorem isStereotype_iff :
    isStereotype s = true ↔ ∃ rest inner, s = '<' :: '<' :: rest
      ∧ (trimEnd rest).reverse = '>' :: '>' :: inner
      ∧ inner.all (!isBrace ·) = true := by
  unfold isStereotype
  constructor
  · intro h
    split at h
    next rest =>
      split at h
      next inner hinner => exact ⟨rest, inner, rfl, hinner, h⟩
      next => cases h
    next => cases h
  · rintro ⟨rest, inner, rfl, hinner, hall⟩
    simp only
    rw [hinner]
    exact hall

theorem isStereotype_of_respaced (h : Respaced s t)
    (hs : isStereotype s = true) : isStereotype t = true := by
  have hblank : ∀ c, isBlank c = true → (!isBrace c) = true := by
    intro c hc
    rw [isBrace_of_isBlank hc]
    rfl
  obtain ⟨rest, inner, rfl, hinner, hall⟩ := isStereotype_iff.mp hs
  obtain ⟨rest', rfl, hrest⟩ :=
    Respaced.strip (w := ['<', '<']) (by decide) h
  have hends := hrest.trimEnd.reverse
  rw [hinner] at hends
  obtain ⟨inner', hinner', hsame⟩ :=
    Respaced.strip (w := ['>', '>']) (by decide) hends
  refine isStereotype_iff.mpr ⟨rest', inner', rfl, hinner', ?_⟩
  rw [← hsame.all_eq hblank]
  exact hall

/-- Respaced texts are stereotypes alike. -/
theorem isStereotype_respaced (h : Respaced s t) :
    isStereotype s = isStereotype t :=
  Bool.eq_iff_iff.mpr
    ⟨isStereotype_of_respaced h, isStereotype_of_respaced h.symm⟩

/-- Respaced texts end a header alike. -/
theorem isEnding_respaced (h : Respaced s t) : isEnding s = isEnding t := by
  have hrest := afterGenerics_respaced h.trimStart
  unfold isEnding
  simp only
  rw [isStereotype_respaced hrest]
  congr 1
  rw [Bool.eq_iff_iff, List.isEmpty_iff, List.isEmpty_iff]
  exact hrest.eq_nil_iff

-- =============================================================== one place

/-- A header at the start of a text: the keyword, a gap, the name and an
ending. -/
theorem ofKeyword?_eq_some {k : Keyword} {h : Header} :
    ofKeyword? k s = some h ↔ ∃ c rest, s = k.text.toList ++ c :: rest
      ∧ isBlank c = true
      ∧ h = ⟨k, (trimStart rest).takeWhile isWord⟩ ∧ h.name ≠ []
      ∧ isEnding ((trimStart rest).dropWhile isWord) = true := by
  unfold ofKeyword?
  constructor
  · intro hsome
    split at hsome
    next hstarts =>
      obtain ⟨r, rfl⟩ := List.isPrefixOf_iff_prefix.mp hstarts
      rw [← String.length_toList, List.drop_left] at hsome
      cases r with
      | nil => cases hsome
      | cons c rest =>
          simp only at hsome
          split at hsome
          next hcond =>
            simp only [Bool.and_eq_true, Bool.not_eq_true',
              List.isEmpty_eq_false_iff] at hcond
            obtain ⟨⟨hc, hname⟩, hend⟩ := hcond
            rw [trimStart_cons_of_blank hc] at hsome hname hend
            injection hsome with hsome
            exact ⟨c, rest, rfl, hc, hsome.symm, hsome ▸ hname, hend⟩
          next => cases hsome
    next => cases hsome
  · rintro ⟨c, rest, rfl, hc, rfl, hname, hend⟩
    rw [if_pos (List.isPrefixOf_iff_prefix.mpr (List.prefix_append ..)),
      ← String.length_toList, List.drop_left]
    simp only
    rw [trimStart_cons_of_blank hc, hc, hend]
    simp [hname]

theorem ofKeyword?_of_respaced {k : Keyword} {h : Header}
    (hst : Respaced s t) (hs : ofKeyword? k s = some h) :
    ofKeyword? k t = some h := by
  obtain ⟨c, rest, rfl, hc, rfl, hname, hend⟩ := ofKeyword?_eq_some.mp hs
  obtain ⟨t', rfl, hrest⟩ := hst.strip (allInk_text k)
  obtain ⟨b, rest', rfl, hb⟩ := hrest.cons_of_blank hc
  have hnamed := hrest.trimStart
  rw [trimStart_cons_of_blank hc, trimStart_cons_of_blank hb] at hnamed
  have htake := hnamed.takeWhile_eq fun _ => isWord_of_isBlank
  have hdrop := hnamed.dropWhile fun _ => isWord_of_isBlank
  refine ofKeyword?_eq_some.mpr ⟨b, rest', rfl, hb, ?_, hname, ?_⟩
  · rw [htake]
  · rw [← isEnding_respaced hdrop]
    exact hend

/-- Respaced texts have the same header of a keyword. -/
theorem ofKeyword?_respaced (k : Keyword) (h : Respaced s t) :
    ofKeyword? k s = ofKeyword? k t :=
  Option.ext fun _ =>
    ⟨ofKeyword?_of_respaced h, ofKeyword?_of_respaced h.symm⟩

/-- Respaced texts are the same header, or none. -/
theorem whole?_respaced (h : Respaced s t) : whole? s = whole? t := by
  unfold whole?
  congr 1
  funext k
  exact ofKeyword?_respaced k h

/-- A text that starts with one keyword starts with no other. -/
theorem ofKeyword?_text_append {k k' : Keyword} (hne : k' ≠ k)
    (s : List Char) : ofKeyword? k' (k.text.toList ++ s) = none := by
  refine Option.eq_none_iff_forall_not_mem.mpr fun h hh => ?_
  obtain ⟨c, rest, heq, -⟩ := ofKeyword?_eq_some.mp hh
  cases k <;> cases k' <;>
    first
      | exact hne rfl
      | (injection heq with hfirst _
         exact absurd hfirst (by decide))

/-- A text that starts with a keyword can only be a header of that keyword. -/
theorem whole?_text_append (k : Keyword) (s : List Char) :
    whole? (k.text.toList ++ s) = ofKeyword? k (k.text.toList ++ s) := by
  have hother := fun k' (hne : k' ≠ k) => ofKeyword?_text_append hne s
  unfold whole? Keyword.all
  cases k with
  | classBlock =>
      rw [List.findSome?_cons, List.findSome?_cons, List.findSome?_cons,
        hother .interfaceBlock (by decide), hother .enumBlock (by decide)]
      cases ofKeyword? .classBlock (Keyword.classBlock.text.toList ++ s) <;> rfl
  | interfaceBlock =>
      rw [List.findSome?_cons, List.findSome?_cons, List.findSome?_cons,
        hother .classBlock (by decide), hother .enumBlock (by decide)]
      cases ofKeyword? .interfaceBlock
        (Keyword.interfaceBlock.text.toList ++ s) <;> rfl
  | enumBlock =>
      rw [List.findSome?_cons, List.findSome?_cons, List.findSome?_cons,
        hother .classBlock (by decide), hother .interfaceBlock (by decide)]
      cases ofKeyword? .enumBlock (Keyword.enumBlock.text.toList ++ s) <;> rfl

/-- No header starts with a blank. -/
theorem whole?_blank_cons {b : Char} (hb : isBlank b = true) :
    whole? (b :: s) = none := by
  have hnone : ∀ k : Keyword, ofKeyword? k (b :: s) = none := by
    intro k
    refine Option.eq_none_iff_forall_not_mem.mpr fun h hh => ?_
    obtain ⟨c, rest, heq, -⟩ := ofKeyword?_eq_some.mp hh
    cases k <;> (injection heq with hbc; rw [hbc] at hb; cases hb)
  unfold whole?
  exact List.findSome?_eq_none_iff.mpr fun k _ => hnone k

-- ============================================================== all places

/-- A text that is a header holds none before it. -/
theorem find?_of_whole? {h : Header} (hs : whole? s = some h) :
    find? s = some h := by
  unfold find?
  cases s with
  | nil => cases hs
  | cons c s =>
      rw [findFrom?]
      simp only [Bool.false_eq_true, if_false, hs]

/-- The search goes on behind a blank, where a word may start. -/
theorem findFrom?_blank_cons {b : Char} (hb : isBlank b = true)
    (joined : Bool) : findFrom? joined (b :: s) = findFrom? false s := by
  rw [findFrom?, whole?_blank_cons hb, ite_self, isWord_of_isBlank hb]

/-- A run of blanks ends an identifier and holds no header. -/
theorem findFrom?_blanks_append {g : List Char} (hg : AllBlank g)
    (hne : g ≠ []) (joined : Bool) :
    findFrom? joined (g ++ s) = findFrom? false s := by
  induction g generalizing joined with
  | nil => exact absurd rfl hne
  | cons b g ih =>
      rw [List.cons_append, findFrom?_blank_cons (hg b (List.mem_cons_self ..))]
      cases g with
      | nil => rfl
      | cons c g =>
          exact ih (fun d hd => hg d (List.mem_cons_of_mem _ hd)) (by simp) false

/-- The search finds the same header in respaced texts. -/
theorem findFrom?_respaced (h : Respaced s t) :
    ∀ joined, findFrom? joined s = findFrom? joined t := by
  induction h with
  | nil => exact fun _ => rfl
  | cons c h ih =>
      intro joined
      rw [findFrom?, findFrom?, whole?_respaced (.cons c h), ih]
  | gap hg hg' hne hne' _ ih =>
      intro joined
      rw [findFrom?_blanks_append hg hne, findFrom?_blanks_append hg' hne']
      exact ih false

/-- Respaced texts have the same header. -/
theorem find?_respaced (h : Respaced s t) : find? s = find? t :=
  findFrom?_respaced h false

/-- Blanks in front of a text make no difference to its header. -/
theorem find?_blanks_append {g : List Char} (hg : AllBlank g) :
    find? (g ++ s) = find? s := by
  cases g with
  | nil => rfl
  | cons b g => exact findFrom?_blanks_append hg (by simp) false

/-- Blanks in front of a text do not change its header. -/
theorem find?_trimStart (s : List Char) : find? (trimStart s) = find? s := by
  obtain ⟨g, hg, heq⟩ := exists_trimStart s
  conv => rhs; rw [heq]
  exact (find?_blanks_append hg).symm

/-- The squash of a text decides its header. -/
theorem find?_of_squash_eq (h : squash s = squash t) :
    find? s.reverse = find? t.reverse := by
  obtain ⟨r, hs, ht⟩ := respaced_of_squash_eq h
  rw [← find?_trimStart s.reverse, ← find?_trimStart t.reverse,
    find?_respaced hs, find?_respaced ht]

end ApiScaffold.Header
