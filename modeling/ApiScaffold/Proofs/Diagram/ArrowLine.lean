/-
Lines that draw an arrow between two names, and which way the arrow points.
The line `A <|-- B` and its turns `A --|> B` and `B --|> A` are read as
relations from the name on the left to the name on the right, whichever side
the head is on (`Relation.ofLine?_drawn`).

Besides, such a line takes part in what is declared around it. Outside any
block it joins a header text. No header ends within it, so a header that
reaches across it either left a stereotype open, which may hold any line, or
waits for its name (`whole?_append_drawn`); and a header that starts in it
starts with the name on the right. In a body the line is an attribute with
the name on the left. So the arrow may be turned in every place where no
header waits for a name and no enumeration is listed
(`Zone.sameAhead_turned`), and the names may trade places where no block is
open and neither is a keyword (`Zone.sameAhead_mirrored`).
-/
import ApiScaffold.Proofs.Diagram.Exchange
import ApiScaffold.Proofs.Diagram.RelationLine

namespace ApiScaffold

-- =================================================== statement vocabulary

/-- An inheritance arrow. -/
def Arrow.Extends (arrow : Arrow) : Prop :=
  arrow = .extendsLeft ∨ arrow = .extendsRight

/-- The relation that an arrow between two names draws. -/
def Relation.drawn (left : String) (arrow : Arrow) (right : String) : Relation where
  source := left
  target := right
  kind := .ofSymbol arrow.text
  symbol := arrow.text

/-- Two names with an arrow between them, as a line. -/
def arrowLine (left : List Char) (arrow : Arrow) (right : List Char) : List Char :=
  left ++ ' ' :: (arrow.text.toList ++ ' ' :: right)

/-- A name that is a block keyword. -/
def IsKeyword (s : List Char) : Prop := ∃ k : Keyword, s = k.text.toList

/-- A walk has read a keyword last, so that a name may follow. -/
def Zone.AwaitsName : Zone → Prop
  | .outside p => IsKeyword ((p.dropWhile isBlank).takeWhile isWord).reverse
  | .inside _ _ => False

/-- The keyword of the block in whose body a walk stands. -/
def Zone.bodyOf? : Zone → Option Keyword
  | .outside _ => none
  | .inside header _ => header.map Header.keyword

instance (s : List Char) : Decidable (IsKeyword s) :=
  decidable_of_iff (s ∈ Keyword.all.map (·.text.toList)) (by
    unfold IsKeyword Keyword.all
    constructor
    · intro h
      obtain ⟨k, -, hk⟩ := List.mem_map.mp h
      exact ⟨k, hk.symm⟩
    · rintro ⟨k, rfl⟩
      cases k <;> simp)

instance (z : Zone) : Decidable z.AwaitsName :=
  match z with
  | .outside _ => inferInstanceAs (Decidable (IsKeyword _))
  | .inside _ _ => inferInstanceAs (Decidable False)

variable {a b a' b' s x y : List Char} {arrow arrow' : Arrow}

-- =============================================================== the line

namespace Arrow

/-- An inheritance arrow holds no identifier character, blank, quote or brace. -/
theorem Extends.text_plain (h : arrow.Extends) :
    ∀ c ∈ arrow.text.toList, isWord c = false ∧ isBlank c = false ∧ c ≠ '"'
      ∧ Header.isBrace c = false := by
  rcases h with rfl | rfl <;> exact forall_mem_of_all (by decide)

/-- Both arrows draw inheritance. -/
theorem Extends.kind_eq (h : arrow.Extends) :
    RelationKind.ofSymbol arrow.text = .inheritance := by
  rcases h with rfl | rfl <;> decide

end Arrow

/-- A relation drawn between two names can be printed. -/
theorem IsEndpoint.canonical_drawn {left right : String}
    (hleft : IsEndpoint left.toList) (hright : IsEndpoint right.toList)
    (arrow : Arrow) : (Relation.drawn left arrow right).Canonical where
  source := hleft
  target := hright
  symbol := ⟨arrow, by cases arrow <;> decide, rfl⟩
  kind := rfl
  fromCardinality := fun _ h => by cases h
  toCardinality := fun _ h => by cases h

/-- A drawn arrow is read as a relation from left to right. -/
theorem Relation.ofLine?_drawn {left right : String}
    (hleft : IsEndpoint left.toList) (hright : IsEndpoint right.toList)
    (arrow : Arrow) {indent trail : List Char} (hindent : AllBlank indent)
    (htrail : AllBlank trail) :
    ofLine? (indent ++ arrowLine left.toList arrow right.toList ++ trail)
      = .ok (some (drawn left arrow right)) := by
  have hcanonical := hleft.canonical_drawn hright arrow
  have hprinted : (drawn left arrow right).printed
      = arrowLine left.toList arrow right.toList := rfl
  rw [← Relation.ofLine?_trim, trim_blanks_append hindent htrail, ← hprinted,
    trim_printed hcanonical, ofLine?_printed hcanonical]

/-- An arrow line holds the characters of its names and its arrow, and blanks. -/
theorem mem_arrowLine {c : Char} (h : c ∈ arrowLine a arrow b) :
    c ∈ a ∨ c = ' ' ∨ c ∈ arrow.text.toList ∨ c ∈ b := by
  unfold arrowLine at h
  simp only [List.mem_append, List.mem_cons] at h
  tauto

/-- An arrow line holds no quote and no brace. -/
theorem arrowLine_plain (ha : IsName a) (hb : IsName b) (harrow : arrow.Extends) :
    Plain (arrowLine a arrow b) := by
  have hname : ∀ {n : List Char}, IsName n → ∀ c ∈ n,
      c ≠ '"' ∧ Header.isBrace c = false := fun hn c hc =>
    ⟨ne_of_isWord (hn.word c hc) (by decide),
      Header.isBrace_of_isBracket (isBracket_of_isWord (hn.word c hc))⟩
  intro c hc
  rcases mem_arrowLine hc with hc | rfl | hc | hc
  · exact hname ha c hc
  · decide
  · exact (harrow.text_plain c hc).2.2
  · exact hname hb c hc

theorem Plain.append {s t : List Char} (hs : Plain s) (ht : Plain t) :
    Plain (s ++ t) := fun c hc => (List.mem_append.mp hc).elim (hs c) (ht c)

/-- An arrow line is no comment. -/
theorem isComment_arrowLine {indent : List Char} (hindent : AllBlank indent)
    (ha : IsName a) (s : List Char) :
    isComment (indent ++ (arrowLine a arrow b ++ s)) = false := by
  obtain ⟨c, r, rfl, hc⟩ := ha.exists_cons
  unfold isComment arrowLine
  rw [trimStart_blanks_append hindent, List.cons_append, List.cons_append,
    trimStart_cons_of_ink (isBlank_of_isWord hc)]
  have hquote : c ≠ '\'' := ne_of_isWord hc (by decide)
  simpa using hquote

/-- In a body the line is an attribute with the name on the left. -/
theorem Member.ofLine?_arrowLine (ha : IsName a) (hb : IsName b)
    (harrow : arrow.Extends) :
    ofLine? (arrowLine a arrow b)
      = some (.attribute ⟨String.ofList a, none, .pub⟩) := by
  obtain ⟨c, r, rfl, hc⟩ := ha.exists_cons
  have hline : dropModifiers (arrowLine (c :: r) arrow b)
      = arrowLine (c :: r) arrow b := by
    refine dropModifiers_of_ne fun h => ?_
    injection h with h
    exact ne_of_isWord hc (by decide) h
  have hsymbol : Access.ofSymbol? c = none := by
    have hne : ∀ d, isWord d = false → c ≠ d := fun d hd => ne_of_isWord hc hd
    unfold Access.ofSymbol?
    rw [if_neg (hne _ (by decide)), if_neg (hne _ (by decide)),
      if_neg (hne _ (by decide)), if_neg (hne _ (by decide))]
  have hunwrap : unwrap (arrowLine (c :: r) arrow b)
      = (.pub, arrowLine (c :: r) arrow b) := by
    unfold unwrap
    simp only [hline]
    unfold arrowLine
    simp only [List.cons_append, hsymbol]
  have hparen : (arrowLine (c :: r) arrow b).contains '(' = false := by
    rw [← Bool.not_eq_true, List.contains_iff_mem]
    intro hmem
    rcases mem_arrowLine hmem with h | h | h | h
    · exact ha.not_mem (by decide) h
    · cases h
    · rcases harrow with rfl | rfl <;> revert h <;> decide
    · exact hb.not_mem (by decide) h
  have hhead : ∀ d ∈ (' ' :: (arrow.text.toList ++ ' ' :: b)).head?,
      isWord d = false := by
    rintro d ⟨⟩
    decide
  unfold ofLine?
  rw [hunwrap]
  simp only [hparen]
  unfold readAttribute? arrowLine
  rw [ha.takeWhile_append hhead, ha.dropWhile_append hhead]
  rcases harrow with rfl | rfl <;> rfl

-- ================================================================ headers

/-- The end of a stereotype that was opened before. -/
def ClosesStereotype (s : List Char) : Prop :=
  ∃ content gap, s = content ++ '>' :: '>' :: gap
    ∧ (∀ c ∈ content, Header.isBrace c = false) ∧ AllBlank gap

/-- No generics that were opened before the line end in it. -/
theorem solid_arrowLine (ha : IsName a) (hb : IsName b) (harrow : arrow.Extends)
    (s : List Char) : Solid (arrowLine a arrow b ++ s) := by
  refine ⟨?_, fun content gap u hcontent hgap hu heq => ?_⟩
  · obtain ⟨c, r, rfl, hc⟩ := ha.exists_cons
    exact ⟨c, _, rfl, hc⟩
  have hname : ∀ c ∈ a ++ [' '], (!Header.isBracket c) = true := by
    intro c hc
    rw [Bool.not_eq_true']
    rcases List.mem_append.mp hc with hc | hc
    · exact isBracket_of_isWord (ha.word c hc)
    · rw [List.mem_singleton.mp hc]
      decide
  have hfirst := congrArg (List.dropWhile (!Header.isBracket ·)) heq
  have hrun : ∀ c ∈ content, (!Header.isBracket c) = true :=
    fun c hc => by rw [hcontent c hc]; rfl
  have hclose : ∀ c ∈ ('>' :: (gap ++ u)).head?, (!Header.isBracket c) = false := by
    rintro c ⟨⟩
    decide
  rw [(run_append hrun hclose).2] at hfirst
  rcases harrow with rfl | rfl
  · -- the first bracket of the line opens
    have hsplit : arrowLine a .extendsLeft b ++ s
        = (a ++ [' ']) ++ '<' :: ('|' :: '-' :: '-' :: ' ' :: (b ++ s)) := by
      simp [arrowLine, Arrow.text]
    rw [hsplit, (run_append hname (by rintro c ⟨⟩; decide)).2] at hfirst
    injection hfirst with hbracket _
    exact absurd hbracket (by decide)
  · -- the first bracket closes, and a name follows it
    have hsplit : arrowLine a .extendsRight b ++ s
        = ((a ++ [' ']) ++ ['-', '-', '|']) ++ '>' :: (' ' :: (b ++ s)) := by
      simp [arrowLine, Arrow.text]
    have hstroke : ∀ c ∈ (a ++ [' ']) ++ ['-', '-', '|'],
        (!Header.isBracket c) = true := by
      intro c hc
      rcases List.mem_append.mp hc with hc | hc
      · exact hname c hc
      · have hall : ∀ c ∈ ['-', '-', '|'], (!Header.isBracket c) = true :=
          forall_mem_of_all (by decide)
        exact hall c hc
    rw [hsplit, (run_append hstroke (by rintro c ⟨⟩; decide)).2] at hfirst
    injection hfirst with _ hrest
    have hink := congrArg trimStart hrest
    obtain ⟨c, r, rfl, hc⟩ := hb.exists_cons
    rw [trimStart_cons_of_blank (by decide), List.cons_append,
      trimStart_cons_of_ink (isBlank_of_isWord hc), trimStart_blanks_append hgap,
      trimStart_of_head (head_of_isStereotype hu)] at hink
    exact ne_of_isWord hc (by decide)
      (head_of_isStereotype hu c (by rw [← hink]; rfl))

/-- A stereotype that reaches across the line ends behind it. -/
theorem closesStereotype_of_arrowLine (ha : IsName a) (hb : IsName b)
    (harrow : arrow.Extends) (hs : ∃ d r, s = d :: r ∧ isBlank d = true)
    {content gap : List Char} (hcontent : ∀ c ∈ content, Header.isBrace c = false)
    (hgap : AllBlank gap)
    (heq : arrowLine a arrow b ++ s = content ++ '>' :: '>' :: gap) :
    ClosesStereotype s := by
  obtain ⟨d, r, rfl, hd⟩ := hs
  have hd' : d ≠ '>' := by
    rintro rfl
    exact absurd hd (by decide)
  rw [List.append_cons] at heq
  rcases List.append_eq_append_iff.mp heq with ⟨m, rfl, rfl⟩ | ⟨m, hsplit, htail⟩
  · exact ⟨d :: m, gap, rfl, fun c hc => hcontent c (by
      rcases List.mem_cons.mp hc with rfl | hc <;> simp [*]), hgap⟩
  · -- the line has one closing bracket at most, and its blank is none
    have hone : (arrowLine a arrow b ++ [d]).count '>' ≤ 1 := by
      have hnone : ∀ {n : List Char}, IsName n → n.count '>' = 0 := fun hn =>
        List.count_eq_zero.mpr (hn.not_mem (by decide))
      unfold arrowLine
      rw [List.count_append, List.count_append, List.count_cons,
        List.count_append, List.count_cons, hnone ha, hnone hb]
      rcases harrow with rfl | rfl <;> simp [Arrow.text, hd']
    cases m with
    | nil =>
        rw [List.append_nil] at hsplit
        rw [List.nil_append] at htail
        refine ⟨[d], gap, by rw [htail]; rfl, fun c hc => ?_, hgap⟩
        rw [List.mem_singleton.mp hc]
        exact Header.isBrace_of_isBlank hd
    | cons e m =>
        injection htail with he htail
        cases m with
        | nil =>
            have hlast := congrArg List.getLast? hsplit
            rw [List.getLast?_concat, List.getLast?_concat] at hlast
            exact absurd ((Option.some.inj hlast).trans he.symm) hd'
        | cons e' m =>
            injection htail with he' htail
            rw [hsplit, ← he, ← he'] at hone
            simp only [List.count_append, List.count_cons_self] at hone
            omega

/-- A header that starts before the line, goes beyond a blank between them
and does not wait for its name there has left a stereotype open, and ends
behind the line. -/
theorem whole?_append_drawn_iff (ha : IsName a) (hb : IsName b)
    (harrow : arrow.Extends) (hy : BlankEnd y)
    (hkey : ∀ (k : Keyword) g, AllBlank g → y ≠ k.text.toList ++ g)
    (hs : ∃ d r, s = d :: r ∧ isBlank d = true) {h : Header} :
    Header.whole? (y ++ (arrowLine a arrow b ++ s)) = some h
      ↔ ClosesStereotype s ∧ ∃ t content, y = t ++ '<' :: '<' :: content
        ∧ h.Declares t ∧ ∀ c ∈ content, Header.isBrace c = false := by
  have hplain : ∀ c ∈ arrowLine a arrow b, Header.isBrace c = false :=
    fun c hc => (arrowLine_plain ha hb harrow c hc).2
  constructor
  · intro hsome
    rcases exists_open_of_whole? hy (solid_arrowLine ha hb harrow s) hsome with
      ⟨gap, -, -, -, heq, -, -, hgap, -⟩ | ⟨t, y, rfl, ht, hy, hform⟩
    · exact absurd heq (hkey h.keyword gap hgap)
    obtain ⟨content, gap, heq, hcontent, hgap⟩ := hform
    obtain ⟨y, rfl, hy, heq⟩ := hy.cut_ink (u := ['<', '<'])
      (v := content ++ '>' :: '>' :: gap) (by decide) heq
    rcases List.append_eq_append_iff.mp heq with ⟨m, rfl, hrest⟩ | ⟨m, rfl, htail⟩
    · exact ⟨closesStereotype_of_arrowLine ha hb harrow hs
        (fun c hc => hcontent c (List.mem_append_right _ hc)) hgap hrest, t, y, rfl, ht,
        fun c hc => hcontent c (List.mem_append_left _ hc)⟩
    · -- the name on the left is in no pair of closing brackets
      obtain ⟨c, r, rfl, hc⟩ := ha.exists_cons
      have hmem : c ∈ '>' :: '>' :: gap := by
        rw [htail]
        simp [arrowLine]
      simp only [List.mem_cons] at hmem
      rcases hmem with rfl | rfl | hmem
      · exact absurd hc (by decide)
      · exact absurd hc (by decide)
      · rw [isWord_of_isBlank (hgap c hmem)] at hc
        cases hc
  · rintro ⟨⟨content', gap, rfl, hcontent', hgap⟩, t, content, rfl, ht, hcontent⟩
    have hsplit : t ++ '<' :: '<' :: content
          ++ (arrowLine a arrow b ++ (content' ++ '>' :: '>' :: gap))
        = t ++ ('<' :: '<' :: ((content ++ (arrowLine a arrow b ++ content'))
          ++ '>' :: '>' :: gap)) := by
      simp
    rw [hsplit]
    refine whole?_of_declares ht (Or.inr ⟨_, gap, rfl, fun c hc => ?_, hgap⟩)
    rcases List.mem_append.mp hc with hc | hc
    · exact hcontent c hc
    · exact (List.mem_append.mp hc).elim (hplain c) (hcontent' c)

-- ============================================================= the search

/-- Only a keyword starts a header. -/
theorem whole?_cons_of_not_word {c : Char} (hc : isWord c = false) (s : List Char) :
    Header.whole? (c :: s) = none := by
  refine Option.eq_none_iff_forall_not_mem.mpr fun h hh => ?_
  obtain ⟨t, u, heq, ht, -⟩ := exists_declares_of_whole? hh
  obtain ⟨d, r, rfl, hd⟩ := ht.exists_cons
  injection heq with hcd _
  rw [hcd, hd] at hc
  cases hc

/-- Behind characters that are in no identifier the search starts over. -/
theorem findFrom?_append_of_not_word {u : List Char} (hu : ∀ c ∈ u, isWord c = false)
    (hne : u ≠ []) (s : List Char) (joined : Bool) :
    Header.findFrom? joined (u ++ s) = Header.find? s := by
  induction u generalizing joined with
  | nil => exact absurd rfl hne
  | cons c u ih =>
      have hc := hu c (List.mem_cons_self ..)
      rw [List.cons_append, Header.findFrom?, whole?_cons_of_not_word hc, ite_self, hc]
      cases u with
      | nil => rfl
      | cons d u => exact ih (fun e he => hu e (List.mem_cons_of_mem _ he)) (by simp) _

/-- Within a name no header starts. -/
theorem findFrom?_joined_append (hn : ∀ c ∈ a, isWord c = true) (s : List Char) :
    Header.findFrom? true (a ++ s) = Header.findFrom? true s := by
  induction a with
  | nil => rfl
  | cons c a ih =>
      rw [List.cons_append, Header.findFrom?, if_pos rfl, hn c (List.mem_cons_self ..)]
      exact ih fun d hd => hn d (List.mem_cons_of_mem _ hd)

/-- A name that starts no header is passed over in the search. -/
theorem find?_name_append (ha : IsName a) (h : Header.whole? (a ++ s) = none) :
    Header.find? (a ++ s) = Header.findFrom? true s := by
  obtain ⟨c, r, rfl, hc⟩ := ha.exists_cons
  unfold Header.find?
  rw [List.cons_append] at h ⊢
  rw [Header.findFrom?, if_neg (by decide), h, hc]
  exact findFrom?_joined_append (fun d hd => ha.word d (List.mem_cons_of_mem _ hd)) s

/-- A name starts a header only if it is a keyword, and then another name
follows. -/
theorem exists_of_whole?_name (ha : IsName a) (hs : ∀ c ∈ s.head?, isWord c = false)
    {h : Header} (hh : Header.whole? (a ++ s) = some h) :
    IsKeyword a ∧ ∃ c r, trimStart s = c :: r ∧ isWord c = true := by
  obtain ⟨t, u, heq, ⟨⟨gap, space, generics, rfl, hgap, hne, -⟩, hname⟩, -⟩ :=
    exists_declares_of_whole? hh
  have hhead : ∀ c ∈ (gap ++ (h.name ++ (space ++ generics)) ++ u).head?,
      isWord c = false := by
    obtain ⟨b, gap, rfl⟩ := List.exists_cons_of_ne_nil hne
    rintro c ⟨⟩
    exact isWord_of_isBlank (hgap _ (List.mem_cons_self ..))
  obtain ⟨htake, hdrop⟩ := run_append ha.word hs
  obtain ⟨htake', hdrop'⟩ := run_append (isWord_keyword h.keyword) hhead
  rw [heq, List.append_assoc] at htake hdrop
  refine ⟨⟨h.keyword, htake.symm.trans htake'⟩, ?_⟩
  obtain ⟨c, r, hcons, hc⟩ := hname.exists_cons
  rw [← hdrop, hdrop', hcons, List.append_assoc, trimStart_blanks_append hgap]
  exact ⟨c, _, trimStart_cons_of_ink (isBlank_of_isWord hc), hc⟩

/-- A header that starts in the line starts with the name on the right. -/
theorem find?_arrowLine_append (ha : IsName a) (harrow : arrow.Extends)
    (s : List Char) :
    Header.find? (arrowLine a arrow b ++ s) = Header.find? (b ++ s) := by
  have hgap : ∀ c ∈ ' ' :: (arrow.text.toList ++ [' ']), isWord c = false := by
    rcases harrow with rfl | rfl <;> exact forall_mem_of_all (by decide)
  have hsplit : arrowLine a arrow b ++ s
      = a ++ ((' ' :: (arrow.text.toList ++ [' '])) ++ (b ++ s)) := by
    simp [arrowLine]
  rw [hsplit, find?_name_append ha]
  · exact findFrom?_append_of_not_word hgap (by simp) _ true
  · refine Option.eq_none_iff_forall_not_mem.mpr fun h hh => ?_
    obtain ⟨-, c, r, hstart, hc⟩ :=
      exists_of_whole?_name ha (by rintro c ⟨⟩; decide) hh
    -- behind the blank stands the arrow, and no name
    rw [List.cons_append, trimStart_cons_of_blank (by decide)] at hstart
    rcases harrow with rfl | rfl
    · injection hstart with hfirst _
      exact ne_of_isWord hc (by decide) hfirst.symm
    · injection hstart with hfirst _
      exact ne_of_isWord hc (by decide) hfirst.symm

/-- No header starts with a name that is no keyword. -/
theorem find?_name_append_of_not_keyword (hb : IsName b) (hkey : ¬ IsKeyword b)
    (hs : ∃ d r, s = d :: r ∧ isBlank d = true) :
    Header.find? (b ++ s) = Header.find? s := by
  obtain ⟨d, r, rfl, hd⟩ := hs
  have hhead : ∀ c ∈ (d :: r).head?, isWord c = false := by
    rintro c ⟨⟩
    exact isWord_of_isBlank hd
  rw [find?_name_append hb]
  · exact (Header.findFrom?_blank_cons hd true).trans
      (Header.findFrom?_blank_cons hd false).symm
  · exact Option.eq_none_iff_forall_not_mem.mpr fun h hh =>
      hkey (exists_of_whole?_name hb hhead hh).1

/-- Two texts make no difference to the search behind the same text, if they
make none to the headers that start in it and none to the search in
themselves. -/
theorem findFrom?_append_congr {m m' : List Char} (joined : Bool)
    (hx : x = [] ∧ joined = false ∨ BlankEnd x)
    (hwhole : ∀ front y, x = front ++ y → y ≠ [] → (front = [] → joined = false) →
      (∀ c ∈ front.getLast?, isWord c = false) →
      Header.whole? (y ++ m) = Header.whole? (y ++ m'))
    (hrest : Header.find? m = Header.find? m') :
    Header.findFrom? joined (x ++ m) = Header.findFrom? joined (x ++ m') := by
  induction x generalizing joined with
  | nil =>
      obtain ⟨-, rfl⟩ := hx.resolve_right fun ⟨c, hc, _⟩ => by cases hc
      exact hrest
  | cons c x ih =>
      have hblank := hx.resolve_left fun hnil => List.cons_ne_nil _ _ hnil.1
      have hhere : (if joined then none else Header.whole? (c :: (x ++ m)))
          = if joined then none else Header.whole? (c :: (x ++ m')) := by
        cases joined with
        | true => rfl
        | false => exact hwhole [] (c :: x) rfl (by simp) (fun _ => rfl) (by simp)
      rw [List.cons_append, List.cons_append, Header.findFrom?, Header.findFrom?, hhere]
      rw [ih (isWord c) hblank.of_cons fun front y heq hy hjoined hfront => ?_]
      refine hwhole (c :: front) y (congrArg (c :: ·) heq) hy (by simp) fun d hd => ?_
      cases front with
      | nil =>
          injection hd with hd
          rw [← hd]
          exact hjoined rfl
      | cons e front => exact hfront d hd

/-- The last identifier of a text, if only blanks follow it. -/
theorem lastWord_append {n g front : List Char} (hn : ∀ c ∈ n, isWord c = true)
    (hne : n ≠ []) (hg : AllBlank g) (hfront : ∀ c ∈ front.getLast?, isWord c = false) :
    (((front ++ (n ++ g)).reverse.dropWhile isBlank).takeWhile isWord).reverse = n := by
  obtain ⟨c, r, hcons⟩ := List.exists_cons_of_ne_nil (by simpa using hne : n.reverse ≠ [])
  have hword : ∀ c ∈ n.reverse, isWord c = true := fun c hc => hn c (by simpa using hc)
  have hink : ∀ c ∈ (n.reverse ++ front.reverse).head?, isBlank c = false := by
    rw [hcons]
    rintro d ⟨⟩
    exact isBlank_of_isWord (hword c (hcons ▸ List.mem_cons_self ..))
  have hblank : ∀ c ∈ g.reverse, isBlank c = true := fun c hc => hg c (by simpa using hc)
  rw [List.reverse_append, List.reverse_append, List.append_assoc,
    (run_append hblank hink).2, (run_append hword (by simpa using hfront)).1,
    List.reverse_reverse]

/-- The line may be exchanged for another behind any text that does not wait
for a name, if that makes no difference to what starts on its right. -/
theorem find?_append_drawn_congr (ha : IsName a) (hb : IsName b)
    (harrow : arrow.Extends) (ha' : IsName a') (hb' : IsName b')
    (harrow' : arrow'.Extends) (hx : x = [] ∨ BlankEnd x)
    (hkey : ¬ IsKeyword ((x.reverse.dropWhile isBlank).takeWhile isWord).reverse)
    (hs : ∃ d r, s = d :: r ∧ isBlank d = true)
    (hright : b = b' ∨ ¬ IsKeyword b ∧ ¬ IsKeyword b') :
    Header.find? (x ++ (arrowLine a arrow b ++ s))
      = Header.find? (x ++ (arrowLine a' arrow' b' ++ s)) := by
  refine findFrom?_append_congr false (hx.imp_left fun hnil => ⟨hnil, rfl⟩)
    (fun front y heq hy _ hfront => ?_) ?_
  · have hblank : BlankEnd y := by
      rcases hx with rfl | hx
      · exact absurd (List.append_eq_nil_iff.mp heq.symm).2 hy
      · exact BlankEnd.of_append (heq ▸ hx) hy
    have hopen : ∀ (k : Keyword) g, AllBlank g → y ≠ k.text.toList ++ g := by
      rintro k g hg rfl
      refine hkey ⟨k, ?_⟩
      rw [heq]
      exact lastWord_append (isWord_keyword k) (by cases k <;> decide) hg hfront
    refine Option.ext fun h => ?_
    exact (whole?_append_drawn_iff ha hb harrow hblank hopen hs).trans
      (whole?_append_drawn_iff ha' hb' harrow' hblank hopen hs).symm
  · rw [find?_arrowLine_append ha harrow, find?_arrowLine_append ha' harrow']
    rcases hright with rfl | ⟨hb₁, hb₂⟩
    · rfl
    · rw [find?_name_append_of_not_keyword hb hb₁ hs,
        find?_name_append_of_not_keyword hb' hb₂ hs]

-- ============================================================== the place

/-- A walk that has read whole lines. -/
def Zone.AfterLines (z : Zone) : Prop := z = .outside [] ∨ ∃ z' : Zone, z = z'.push '\n'

/-- A walk over whole lines stands at the start of one. -/
theorem afterLines_walkOver (above : List (List Char)) :
    (walkOver above).zone.AfterLines := by
  by_cases h : above = []
  · exact Or.inl (by rw [h]; rfl)
  · exact Or.inr (exists_zone_runLines ⟨false, 0, .outside [], []⟩ 0 h)

/-- Outside a block, what a header is looked for in is empty or ends in a blank. -/
theorem Zone.AfterLines.pending {p : List Char} (h : (Zone.outside p).AfterLines) :
    p.reverse = [] ∨ BlankEnd p.reverse := by
  rcases h with h | ⟨z, h⟩
  · injection h with h
    exact Or.inl (by rw [h]; rfl)
  · cases z with
    | inside header content => cases h
    | outside q =>
        injection h with h
        exact Or.inr ⟨'\n', by rw [h]; simp, by decide⟩

/-- Inside a block, the content ends in a line break. -/
theorem Zone.AfterLines.content {header : Option Header} {x : List Char}
    (h : (Zone.inside header x).AfterLines) : ∃ y, x = '\n' :: y := by
  rcases h with h | ⟨z, h⟩
  · cases h
  · cases z with
    | outside q => cases h
    | inside header' content =>
        injection h with _ h
        exact ⟨content, h⟩

/-- Among the lines of a body the line is one attribute. -/
theorem membersOf_arrowLine {indent trail : List Char} (ha : IsName a) (hb : IsName b)
    (harrow : arrow.Extends) (hindent : AllBlank indent) (htrail : AllBlank trail)
    (hunbroken : '\n' ∉ indent ∧ '\n' ∉ trail) (y s : List Char) :
    membersOf (('\n' :: ((indent ++ arrowLine a arrow b ++ trail).reverse
        ++ '\n' :: y)).reverse ++ s)
      = membersOf y.reverse
        ++ .attribute ⟨String.ofList a, none, .pub⟩ :: membersOf s := by
  have hbreak : '\n' ∉ indent ++ arrowLine a arrow b ++ trail := by
    intro hmem
    rcases List.mem_append.mp hmem with hmem | hmem
    · rcases List.mem_append.mp hmem with hmem | hmem
      · exact hunbroken.1 hmem
      · rcases mem_arrowLine hmem with h | h | h | h
        · exact ha.not_mem (by decide) h
        · cases h
        · rcases harrow with rfl | rfl <;> revert h <;> decide
        · exact hb.not_mem (by decide) h
    · exact hunbroken.2 hmem
  have htrim : trim (indent ++ arrowLine a arrow b ++ trail) = arrowLine a arrow b := by
    rw [trim_blanks_append hindent htrail]
    refine ha.trim_append ?_
    have hend := (inkEnd_of_ink hb.ink).append_left hb.ne_nil
      (' ' :: (arrow.text.toList ++ [' ']))
    simpa using hend
  have hink : trim (indent ++ arrowLine a arrow b ++ trail) ≠ [] := by
    rw [htrim]
    simp [arrowLine]
  have hsplit : ('\n' :: ((indent ++ arrowLine a arrow b ++ trail).reverse
        ++ '\n' :: y)).reverse ++ s
      = y.reverse ++ '\n' :: ((indent ++ arrowLine a arrow b ++ trail) ++ '\n' :: s) := by
    simp
  unfold membersOf
  rw [hsplit, contentLines_append_break, contentLines_append_break,
    contentLines_of_line hbreak, inkLines_of_ink hink, htrim,
    List.filterMap_append, List.filterMap_append,
    List.filterMap_cons_some (Member.ofLine?_arrowLine ha hb harrow)]
  rfl

/-- In an entity's body, one arrow between names may stand for another with the
same name on the left. -/
theorem Block.declared_drawn {header : Header} (hkind : header.keyword ≠ .enumBlock)
    {indent trail : List Char} (hindent : AllBlank indent) (htrail : AllBlank trail)
    (hunbroken : '\n' ∉ indent ∧ '\n' ∉ trail)
    (ha : IsName a) (hb : IsName b) (harrow : arrow.Extends)
    (hb' : IsName b') (harrow' : arrow'.Extends) (y s : List Char) :
    Block.declared ⟨header.keyword, header.name,
        ('\n' :: ((indent ++ arrowLine a arrow b ++ trail).reverse
          ++ '\n' :: y)).reverse ++ s⟩
      = Block.declared ⟨header.keyword, header.name,
        ('\n' :: ((indent ++ arrowLine a arrow' b' ++ trail).reverse
          ++ '\n' :: y)).reverse ++ s⟩ := by
  have hmembers :=
    (membersOf_arrowLine ha hb harrow hindent htrail hunbroken y s).trans
      (membersOf_arrowLine ha hb' harrow' hindent htrail hunbroken y s).symm
  unfold Block.declared Entity.ofBlock attributesOf methodsOf
  simp only
  rw [hmembers]
  cases hk : header.keyword with
  | classBlock => rfl
  | interfaceBlock => rfl
  | enumBlock => exact absurd hk hkind

/-- Where no header waits for a name, one arrow between names may stand for
another: in an entity's body if the name on the left is the same, and
otherwise if the name on the right is the same or neither is a keyword. -/
theorem Zone.AfterLines.sameAhead_drawn {z : Zone} (hz : z.AfterLines)
    {indent trail : List Char} (hindent : AllBlank indent) (htrail : AllBlank trail)
    (hunbroken : '\n' ∉ indent ∧ '\n' ∉ trail)
    (ha : IsName a) (hb : IsName b) (harrow : arrow.Extends) (ha' : IsName a')
    (hb' : IsName b') (harrow' : arrow'.Extends) (hwaits : ¬ z.AwaitsName)
    (hright : b = b' ∨ ¬ IsKeyword b ∧ ¬ IsKeyword b')
    (hbody : ∀ k, z.bodyOf? = some k → a = a' ∧ k ≠ .enumBlock) :
    ((z.pushAll (indent ++ arrowLine a arrow b ++ trail)).push '\n').SameAhead
      ((z.pushAll (indent ++ arrowLine a' arrow' b' ++ trail)).push '\n') := by
  match z with
  | .outside p =>
      rw [Zone.pushAll_outside, Zone.pushAll_outside]
      refine .outside fun s => ?_
      have hsplit : ∀ m : List Char, ('\n' :: ((indent ++ m ++ trail).reverse ++ p)).reverse
          ++ s = (p.reverse ++ indent) ++ (m ++ (trail ++ '\n' :: s)) := by
        intro m
        simp
      rw [hsplit, hsplit]
      refine find?_append_drawn_congr ha hb harrow ha' hb' harrow' ?_ ?_ ?_ hright
      · rcases List.eq_nil_or_concat indent with rfl | ⟨g, c, rfl⟩
        · rw [List.append_nil]
          exact hz.pending
        · exact Or.inr ⟨c, by simp, hindent c (by simp)⟩
      · rw [List.reverse_append, List.reverse_reverse, List.dropWhile_append_of_pos
          fun c hc => hindent c (List.mem_reverse.mp hc)]
        exact hwaits
      · cases trail with
        | nil => exact ⟨'\n', s, rfl, by decide⟩
        | cons c trail => exact ⟨c, _, rfl, htrail c (List.mem_cons_self ..)⟩
  | .inside none x =>
      rw [Zone.pushAll_inside, Zone.pushAll_inside]
      exact .unheaded rfl
  | .inside (some header) x =>
      obtain ⟨rfl, hkind⟩ := hbody header.keyword rfl
      rw [Zone.pushAll_inside, Zone.pushAll_inside]
      refine .body fun s => ?_
      obtain ⟨y, rfl⟩ := hz.content
      exact Block.declared_drawn hkind hindent htrail hunbroken ha hb harrow hb' harrow' y s

end ApiScaffold
