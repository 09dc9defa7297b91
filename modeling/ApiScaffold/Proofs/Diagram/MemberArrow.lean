/-
Member lines that are read as relations. The reader of members looks at the
start of a line only, and takes any text behind the name; the reader of
relations looks for an arrow anywhere. So a line is read by both exactly if
an arrow between two names stands behind the name of the member
(`Member.RelatesBehindName`).

Nothing in front of that is part of an arrow. Every arrow holds two strokes
or dots in a row. Modifiers, blanks and the name hold none, and the one
stroke that a visibility symbol can be has something else behind it
(`Lone`); so the strokes of an arrow stand behind the name
(`strokes_suffix_of_member`), though its head may be an `o` that is the whole
name.
-/
import ApiScaffold.Proofs.Diagram.ArrowChoice
import ApiScaffold.Proofs.Diagram.CommentLine
import ApiScaffold.Proofs.Diagram.NumeralLimit

namespace ApiScaffold

-- =================================================== statement vocabulary

/-- A character that arrows are drawn with. -/
def IsStroke (c : Char) : Prop := c = '-' ∨ c = '.'

instance (c : Char) : Decidable (IsStroke c) :=
  inferInstanceAs (Decidable (c = '-' ∨ c = '.'))

/-- An arrow from its first stroke or dot on. -/
def Arrow.strokes (a : Arrow) : List Char :=
  a.text.toList.dropWhile fun c => !decide (IsStroke c)

/-- A side of an arrow has a name. -/
def Named (side : List Char) : Prop :=
  (RelationEnd.ofText? (trim side)).isSome = true

namespace Member

/-- The name of an attribute or a method. -/
def name : Member → List Char
  | .attribute a => a.name.toList
  | .method m => m.name.toList

/-- Behind its name the line of a member has the strokes of its first arrow,
which stands between two names. -/
def RelatesBehindName (m : Member) (line : List Char) : Prop :=
  ∃ tail cut, (unwrap line).2 = m.name ++ tail ∧ Arrow.find? line = some cut
    ∧ cut.arrow.strokes ++ cut.right <:+ tail
    ∧ Named cut.left ∧ Named (beforeLabel false cut.right)

end Member

/-- A line of a text is also read as a member of a class or an interface. -/
def ReadAsMember (text line : List Char) (m : Member) : Prop :=
  ∃ b ∈ blocksIn text, b.keyword ≠ .enumBlock
    ∧ trim line ∈ contentLines b.body ∧ Member.ofLine? (trim line) = some m

-- =============================================================== strokes

/-- Behind each stroke of a text follows something else within it. -/
def Lone (w : List Char) : Prop :=
  ∀ u x v, w = u ++ x :: v → IsStroke x → ∃ y r, v = y :: r ∧ ¬ IsStroke y

/-- A text without strokes. -/
def Strokeless (w : List Char) : Prop := ∀ c ∈ w, ¬ IsStroke c

theorem Strokeless.append {u w : List Char} (hu : Strokeless u)
    (hw : Strokeless w) : Strokeless (u ++ w) :=
  fun c hc => (List.mem_append.mp hc).elim (hu c) (hw c)

theorem Strokeless.lone {w : List Char} (h : Strokeless w) : Lone w := by
  intro u x v hw hx
  exact absurd hx (h x (by simp [hw]))

/-- One character between texts without strokes is alone. -/
theorem lone_append_cons {f g : List Char} (hf : Strokeless f) (c : Char)
    (hg : Strokeless g) (hne : g ≠ []) : Lone (f ++ c :: g) := by
  intro u x v hw hx
  have hsame : u = f ∧ v = g := by
    rcases List.append_eq_append_iff.mp hw with ⟨t, hu, ht⟩ | ⟨t, hf', ht⟩
    · cases t with
      | nil =>
          injection ht with _ hv
          exact ⟨by simp [hu], hv.symm⟩
      | cons d t =>
          injection ht with _ ht
          exact absurd hx (hg x (by simp [ht]))
    · cases t with
      | nil =>
          injection ht with _ hv
          exact ⟨by simp [hf'], hv⟩
      | cons d t =>
          injection ht with hd _
          exact absurd hx (hf x (by simp [hf', hd]))
  obtain ⟨y, r, hy⟩ := List.exists_cons_of_ne_nil hne
  exact ⟨y, r, hsame.2.trans hy, hg y (by simp [hy])⟩

/-- Two strokes in a row stand behind a text of lone ones. -/
theorem Lone.suffix_of_strokes {w tail u v : List Char} {x y : Char} (h : Lone w)
    (hx : IsStroke x) (hy : IsStroke y) (heq : w ++ tail = u ++ x :: y :: v) :
    x :: y :: v <:+ tail := by
  rcases List.append_eq_append_iff.mp heq with ⟨t, hu, ht⟩ | ⟨t, hw, ht⟩
  · exact ⟨t, ht.symm⟩
  · cases t with
    | nil => exact ⟨[], ht⟩
    | cons d t =>
        injection ht with hd ht
        obtain ⟨z, r, hz, hnot⟩ := h u d t hw (hd ▸ hx)
        rw [hz] at ht
        injection ht with hyz _
        exact absurd hy (hyz ▸ hnot)

/-- An arrow goes on with two strokes or dots behind its head. -/
theorem Arrow.exists_strokes (a : Arrow) : ∃ head x y rest,
    a.text.toList = head ++ a.strokes ∧ a.strokes = x :: y :: rest
      ∧ IsStroke x ∧ IsStroke y := by
  have hsplit : a.text.toList
      = a.text.toList.takeWhile (fun c => !decide (IsStroke c)) ++ a.strokes :=
    List.takeWhile_append_dropWhile.symm
  obtain ⟨x, y, rest, hstrokes, hx, hy⟩ : ∃ x y rest, a.strokes = x :: y :: rest
      ∧ IsStroke x ∧ IsStroke y := by
    cases a <;> exact ⟨_, _, _, rfl, by decide, by decide⟩
  exact ⟨_, x, y, rest, hsplit, hstrokes, hx, hy⟩

-- =============================================================== members

theorem not_isStroke_of_isWord {c : Char} (h : isWord c = true) : ¬ IsStroke c := by
  rintro (rfl | rfl)
  · exact absurd h (by decide)
  · exact absurd h (by decide)

theorem AllBlank.strokeless {g : List Char} (h : AllBlank g) : Strokeless g := by
  rintro c hc (rfl | rfl)
  · exact absurd (h _ hc) (by decide)
  · exact absurd (h _ hc) (by decide)

theorem exists_afterModifier? {s r : List Char} (h : afterModifier? s = some r) :
    ∃ f, Strokeless f ∧ s = f ++ r := by
  obtain ⟨word, rest, -, hword, rfl, rfl⟩ := afterModifier?_eq_some.mp h
  obtain ⟨g, hg, hrest⟩ := exists_trimStart rest
  refine ⟨'\x7b' :: (word ++ '\x7d' :: g), ?_, ?_⟩
  · intro c hc
    simp only [List.mem_cons, List.mem_append] at hc
    rcases hc with rfl | hc | rfl | hc
    · decide
    · exact not_isStroke_of_isWord (hword c hc)
    · decide
    · exact hg.strokeless c hc
  · conv => lhs; rw [hrest]
    simp

/-- Modifiers hold no strokes. -/
theorem exists_dropModifiers (s : List Char) :
    ∃ f, Strokeless f ∧ s = f ++ dropModifiers s := by
  induction s using dropModifiers.induct with
  | case1 s r hr ih =>
      obtain ⟨f, hf, hs⟩ := exists_afterModifier? hr
      obtain ⟨f', hf', hr'⟩ := ih
      refine ⟨f ++ f', hf.append hf', ?_⟩
      rw [dropModifiers_of_some hr, List.append_assoc, ← hr', ← hs]
  | case2 s hnone =>
      have hnil : Strokeless [] := fun c hc => by cases hc
      exact ⟨[], hnil, (dropModifiers_of_none hnone).symm⟩

namespace Member

variable {line : List Char} {m : Member}

/-- A member is read from the name that stands behind the symbol and the
modifiers of its line. -/
theorem name_of_ofLine? (h : ofLine? line = some m) :
    m.name = (unwrap line).2.takeWhile isWord ∧ m.name ≠ [] := by
  unfold ofLine? at h
  simp only at h
  split at h
  · obtain ⟨method, hread, rfl⟩ := Option.map_eq_some_iff.mp h
    unfold readMethod? at hread
    simp only at hread
    split at hread
    next c w rest htake hdrop =>
      injection hread with hread
      subst hread
      exact ⟨String.toList_ofList, by simp [name, htake]⟩
    next => cases hread
  · obtain ⟨attr, hread, rfl⟩ := Option.map_eq_some_iff.mp h
    unfold readAttribute? at hread
    simp only at hread
    split at hread
    next => cases hread
    next hne =>
      injection hread with hread
      subst hread
      exact ⟨String.toList_ofList, by simpa [name] using hne⟩

/-- Modifiers, blanks and one visibility symbol stand in front of what a
member is read from. -/
theorem exists_front (htrim : trim line = line) : ∃ front,
    line = front ++ (unwrap line).2 ∧ (Strokeless front
      ∨ ∃ f c g, front = f ++ c :: g ∧ Strokeless f ∧ Strokeless g) := by
  obtain ⟨f, hf, hline⟩ := exists_dropModifiers line
  unfold unwrap
  cases hs : dropModifiers line with
  | nil =>
      rw [hs] at hline
      exact ⟨f, hline, Or.inl hf⟩
  | cons c rest =>
      rw [hs] at hline
      simp only
      cases Access.ofSymbol? c with
      | none =>
          obtain ⟨g, hg, hrest⟩ := exists_dropModifiers (c :: rest)
          refine ⟨f ++ g, ?_, Or.inl (hf.append hg)⟩
          rw [List.append_assoc, ← hrest]
          exact hline
      | some access =>
          have hend : InkEnd rest := by
            have hink := inkEnd_trim line
            rw [htrim, hline, List.append_cons] at hink
            exact hink.of_append
          obtain ⟨g, hg, hrest⟩ := hend.exists_trim
          obtain ⟨g', hg', hrest'⟩ := exists_dropModifiers (trim rest)
          refine ⟨f ++ c :: (g ++ g'), ?_,
            Or.inr ⟨f, c, g ++ g', rfl, hf, hg.strokeless.append hg'⟩⟩
          rw [List.append_assoc, List.cons_append, List.append_assoc, ← hrest',
            ← hrest]
          exact hline

/-- What stands in front of the name of a member, and the name, hold one
stroke at most: the visibility symbol. -/
theorem exists_lone_of_ofLine? (htrim : trim line = line)
    (h : ofLine? line = some m) : ∃ front tail, (unwrap line).2 = m.name ++ tail
      ∧ line = front ++ m.name ++ tail ∧ Lone (front ++ m.name) := by
  obtain ⟨hname, hne⟩ := name_of_ofLine? h
  have hstrokeless : Strokeless m.name := by
    intro c hc
    rw [hname] at hc
    exact not_isStroke_of_isWord (List.mem_takeWhile_imp hc)
  have htail : (unwrap line).2 = m.name ++ (unwrap line).2.dropWhile isWord := by
    rw [hname]
    exact List.takeWhile_append_dropWhile.symm
  obtain ⟨front, hline, hfront⟩ := exists_front htrim
  refine ⟨front, _, htail, ?_, ?_⟩
  · rw [List.append_assoc, ← htail]
    exact hline
  · rcases hfront with hfront | ⟨f, c, g, rfl, hf, hg⟩
    · exact (hfront.append hstrokeless).lone
    · rw [List.append_assoc]
      exact lone_append_cons hf c (hg.append hstrokeless) (by simp [hne])

/-- The strokes of an arrow on the line of a member stand behind its name. -/
theorem exists_strokes_suffix (htrim : trim line = line)
    (h : ofLine? line = some m) {cut : Arrow.Cut}
    (hcut : Arrow.find? line = some cut) : ∃ tail, (unwrap line).2 = m.name ++ tail
      ∧ cut.arrow.strokes ++ cut.right <:+ tail := by
  obtain ⟨front, tail, htail, hline, hlone⟩ := exists_lone_of_ofLine? htrim h
  refine ⟨tail, htail, ?_⟩
  obtain ⟨-, hsplit⟩ := Arrow.firstLongest_of_find? hcut
  obtain ⟨head, x, y, rest, htext, hstrokes, hx, hy⟩ := cut.arrow.exists_strokes
  have heq : front ++ m.name ++ tail
      = cut.left ++ head ++ x :: y :: (rest ++ cut.right) := by
    rw [← hline, hsplit, htext, hstrokes]
    simp
  rw [hstrokes]
  exact hlone.suffix_of_strokes hx hy heq

/-- No member stands on a comment line. -/
theorem not_comment_of_ofLine? (h : ofLine? line = some m) :
    line.head? ≠ some '\'' := by
  intro hhead
  have hsaid : isSaid line = false := by simpa [isSaid] using hhead
  rw [ofLine?_of_comment hsaid] at h
  cases h

/-- The line of a member has two ends exactly if it relates behind the
name. -/
theorem relates_iff (htrim : trim line = line) (h : ofLine? line = some m) :
    (∃ source arrow target, Relates line source arrow target)
      ↔ m.RelatesBehindName line := by
  unfold Relates
  rw [htrim]
  constructor
  · rintro ⟨source, arrow, target, -, cut, hcut, -, hsource, htarget⟩
    obtain ⟨tail, htail, hsuffix⟩ := exists_strokes_suffix htrim h hcut
    refine ⟨tail, cut, htail, hcut, hsuffix, ?_, ?_⟩
    · unfold Named
      rw [hsource]
      rfl
    · unfold Named
      rw [htarget]
      rfl
  · rintro ⟨-, cut, -, hcut, -, hsource, htarget⟩
    obtain ⟨source, hsource⟩ := Option.isSome_iff_exists.mp hsource
    obtain ⟨target, htarget⟩ := Option.isSome_iff_exists.mp htarget
    exact ⟨source, cut.arrow, target, not_comment_of_ofLine? h, cut, hcut, rfl,
      hsource, htarget⟩

/-- The line of a member is read as no relation exactly if it relates nothing
behind the name. -/
theorem ofLine?_eq_none_iff (htrim : trim line = line) (h : ofLine? line = some m) :
    Relation.ofLine? line = .ok none ↔ ¬ m.RelatesBehindName line := by
  rw [← relates_iff htrim h]
  simp only [← RelationLine.ofLine_eq_between]
  unfold Relation.ofLine?
  cases hline : RelationLine.ofLine line with
  | absent => simp
  | nameless => simp
  | between source arrow target =>
      refine iff_of_false ?_ fun hnone => hnone ⟨source, arrow, target, rfl⟩
      simp only
      cases Relation.ofEnds source arrow target with
      | error e => simp [Except.map]
      | ok r => simp [Except.map]

end Member

-- ================================================================ texts

/-- Lines that can be read give the relation of each of them. -/
theorem exists_ofLine?_of_mem {ls : List (List Char)} {rs : List Relation}
    (h : relationsOfLines ls = .ok rs) {line : List Char} (hline : line ∈ ls) :
    ∃ o, Relation.ofLine? line = .ok o ∧ ∀ r ∈ o, r ∈ rs := by
  induction ls generalizing rs with
  | nil => cases hline
  | cons first ls ih =>
      unfold relationsOfLines at h
      cases hfirst : Relation.ofLine? first with
      | error e => rw [hfirst] at h; cases h
      | ok o =>
          cases hmore : relationsOfLines ls with
          | error e => rw [hfirst, hmore] at h; cases h
          | ok more =>
              rw [hfirst, hmore] at h
              obtain rfl : o.toList ++ more = rs := Except.ok.inj h
              rcases List.mem_cons.mp hline with rfl | hline
              · exact ⟨o, hfirst, fun r hr =>
                  List.mem_append_left _ (Option.mem_toList.mpr hr)⟩
              · obtain ⟨o', ho', hr'⟩ := ih hmore hline
                exact ⟨o', ho', fun r hr => List.mem_append_right _ (hr' r hr)⟩

theorem relationsOfLines_of_parse {text : String} {d : Diagram}
    (h : Diagram.parse text = .ok d) :
    relationsOfLines (lines (normalize text.toList)) = .ok d.relations := by
  unfold Diagram.parse Diagram.ofNormalized findRelations at h
  cases hrelations : relationsOfLines (lines (normalize text.toList)) with
  | error e => rw [hrelations] at h; cases h
  | ok rs =>
      rw [hrelations] at h
      injection h with h
      rw [← h]
      rfl

theorem trim_of_mem_contentLines {body line : List Char}
    (h : line ∈ contentLines body) : trim line = line := by
  obtain ⟨raw, -, rfl⟩ := List.mem_map.mp (List.mem_filter.mp h).1
  exact trim_trim raw

/-- A line that is read as a member is read as a relation too exactly if an
arrow between two names stands behind the name of the member; so a diagram
has a relation from such a line in this case only. -/
theorem member_line_relates_iff (line : List Char) (m : Member) :
    (∀ body, line ∈ contentLines body → Member.ofLine? line = some m →
      (Relation.ofLine? line = .ok none ↔ ¬ m.RelatesBehindName line))
    ∧ ∀ text d, Diagram.parse text = .ok d →
      line ∈ lines (normalize text.toList) →
      ReadAsMember (normalize text.toList) line m →
      ((∃ r ∈ d.relations, Relation.ofLine? line = .ok (some r))
        ↔ m.RelatesBehindName (trim line)) := by
  constructor
  · intro body hline hm
    exact Member.ofLine?_eq_none_iff (trim_of_mem_contentLines hline) hm
  · rintro text d hparse hline ⟨b, -, -, -, hm⟩
    have hrelates := Member.ofLine?_eq_none_iff (trim_trim line) hm
    rw [Relation.ofLine?_trim] at hrelates
    obtain ⟨o, ho, hmem⟩ := exists_ofLine?_of_mem
      (relationsOfLines_of_parse hparse) hline
    rw [ho] at hrelates ⊢
    cases o with
    | none => simpa using hrelates
    | some r =>
        refine iff_of_true ⟨r, hmem r rfl, rfl⟩ ?_
        exact not_not.mp fun hnot => by
          have hnone := hrelates.mpr hnot
          cases hnone

/-- An `o` that is the whole name is the head of an arrow. -/
theorem member_line_relates_of_whole_name :
    let text := "class A \x7b\n\x7bstatic\x7d o--x\n\x7d\n"
    let line := "\x7bstatic\x7d o--x".toList
    let m := Member.attribute ⟨"o", none, .pub⟩
    let r : Relation :=
      { source := "\x7bstatic\x7d", target := "x"
        kind := .aggregation, symbol := "o--" }
    let a : Entity := ⟨"A", .classEntity, [⟨"o", none, .pub⟩], []⟩
    Diagram.parse text = .ok { classes := [a], relations := [r] }
      ∧ line ∈ lines (normalize text.toList)
      ∧ ReadAsMember (normalize text.toList) line m
      ∧ m.RelatesBehindName line := by
  intro text line m r a
  have hparse : Diagram.parse text = .ok { classes := [a], relations := [r] } := by
    decide +kernel
  have hline : line ∈ lines (normalize text.toList) := by decide +kernel
  have hread : ReadAsMember (normalize text.toList) line m := by
    refine ⟨⟨.classBlock, "A".toList, '\n' :: (line ++ ['\n'])⟩, ?_⟩
    decide +kernel
  have hrelation : Relation.ofLine? line = .ok (some r) := by decide +kernel
  have hiff := (member_line_relates_iff line m).2 text _ hparse hline hread
  have hrelates := hiff.mp ⟨r, List.mem_singleton.mpr rfl, hrelation⟩
  exact ⟨hparse, hline, hread, hrelates⟩

/-- A remark behind two strokes makes the line of a member a relation. -/
theorem remark_makes_member_line_relate :
    let text := "class A \x7b\n+total: int -- number of items\n\x7d\n"
    let line := "+total: int -- number of items".toList
    let r : Relation :=
      { source := "int", target := "items", kind := .association, symbol := "--" }
    let a : Entity := ⟨"A", .classEntity, [⟨"total", some "int", .pub⟩], []⟩
    Diagram.parse text = .ok { classes := [a], relations := [r] }
      ∧ line ∈ lines (normalize text.toList)
      ∧ ReadAsMember (normalize text.toList) line
        (.attribute ⟨"total", some "int", .pub⟩)
      ∧ Relation.ofLine? line = .ok (some r) := by
  intro text line r a
  refine ⟨by decide +kernel, by decide +kernel, ?_, by decide +kernel⟩
  refine ⟨⟨.classBlock, "A".toList, '\n' :: (line ++ ['\n'])⟩, ?_⟩
  decide +kernel

end ApiScaffold
