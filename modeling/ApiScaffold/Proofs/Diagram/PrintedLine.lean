/-
One line of a written diagram, to each of the two readers. A member or a
value is a content line: it holds no brace and no quote, and its only
stroke is a visibility symbol at its start. A relation holds its braces in
quotes, so that the walk for blocks passes over it. Either line is found
again between the line feeds of a text.
-/
import ApiScaffold.Proofs.Diagram.RelationLine

namespace ApiScaffold

-- ======================================================= content lines

/-- A line that stands for itself inside a block: the walk reads it, no
trimming changes it and no arrow stands in it. -/
structure IsContent (l : List Char) : Prop where
  plain : Plain l
  not_comment : isComment l = false
  unbroken : '\n' ∉ l ∧ '\r' ∉ l
  unmarked : l.head? ≠ some '\uFEFF'
  trimmed : trim l = l
  ne_nil : l ≠ []
  strokeless : ∀ e ∈ l.tail, e ≠ '-' ∧ e ≠ '.'

/-- The characters that content lines hold at most at their start. -/
def reserved : List Char := ['"', '\x7b', '\x7d', '\n', '\r', '-', '.']

/-- A content line from its first character and the rest. -/
theorem IsContent.of_cons {c : Char} {s : List Char}
    (hc : c ∉ ['"', '\x7b', '\x7d', '\n', '\r', '\'', '\uFEFF'])
    (hblank : isBlank c = false) (hs : ∀ e ∈ reserved, e ∉ s)
    (hend : InkEnd (c :: s)) : IsContent (c :: s) := by
  simp only [List.mem_cons, List.not_mem_nil, or_false, not_or] at hc
  obtain ⟨hquote, hopen, hclose, hfeed, hreturn, hcomment, hmark⟩ := hc
  have hs' : ∀ e ∈ s, e ∉ reserved := fun e he hmem => hs e hmem he
  refine ⟨?_, ?_, ⟨?_, ?_⟩, ?_, trim_cons_of_inkEnd hblank hend, by simp, ?_⟩
  · intro e he
    unfold Header.isBrace
    rcases List.mem_cons.mp he with rfl | he
    · simp [hquote, hopen, hclose]
    · have hres := hs' e he
      simp only [reserved, List.mem_cons, not_or] at hres
      simp [hres]
  · unfold isComment
    rw [trimStart_cons_of_ink hblank]
    simpa using hcomment
  · simpa [Ne.symm hfeed] using hs '\n' (by decide)
  · simpa [Ne.symm hreturn] using hs '\r' (by decide)
  · simpa using hmark
  · intro e he
    have hres := hs' e he
    simp only [reserved, List.mem_cons, not_or] at hres
    simp [hres]

/-- No reserved character is one of an identifier or a type. -/
theorem reserved_spec : ∀ e ∈ reserved, isWord e = false
    ∧ Member.isTypeChar e = false ∧ e ≠ ':' ∧ e ≠ ' ' ∧ e ≠ '(' ∧ e ≠ ')' := by
  intro e he
  simp only [reserved, List.mem_cons, List.not_mem_nil, or_false] at he
  rcases he with rfl | rfl | rfl | rfl | rfl | rfl | rfl <;> decide

theorem IsName.isContent {s : List Char} (h : IsName s) : IsContent s := by
  obtain ⟨c, r, rfl, hc⟩ := h.exists_cons
  refine IsContent.of_cons ?_ (isBlank_of_isWord hc) ?_ (inkEnd_of_ink h.ink)
  · intro hmem
    have hnone : ['"', '\x7b', '\x7d', '\n', '\r', '\'', '\uFEFF'].any isWord
        = false := by decide +kernel
    exact List.any_eq_false.mp hnone c hmem hc
  · intro e he hmem
    exact h.not_mem (reserved_spec e he).1 (List.mem_cons_of_mem _ hmem)

/-- A visibility symbol starts a content line. -/
theorem isContent_symbol (a : Access) {s : List Char}
    (hs : ∀ e ∈ reserved, e ∉ s) (hend : InkEnd s) :
    IsContent (a.symbol :: s) := by
  have hsymbol : InkEnd [a.symbol] := inkEnd_of_ink (by cases a <;> decide)
  exact IsContent.of_cons (by cases a <;> decide) (by cases a <;> decide) hs
    (hsymbol.append hend)

theorem Attribute.Canonical.isContent {a : Attribute} (h : a.Canonical) :
    IsContent a.printed := by
  refine isContent_symbol a.access ?_
    ((inkEnd_of_ink h.name.ink).append (Member.inkEnd_printedType h.type))
  intro e he hmem
  obtain ⟨hword, htype, hcolon, hspace, -, -⟩ := reserved_spec e he
  rcases List.mem_append.mp hmem with hmem | hmem
  · exact h.name.not_mem hword hmem
  · exact Member.not_mem_printedType h.type htype hcolon hspace hmem

theorem Method.Canonical.isContent {m : Method} (h : m.Canonical) :
    IsContent m.printed := by
  have hparens : InkEnd ('(' :: ')' :: printedType m.returnType) :=
    (inkEnd_of_ink (s := ['(', ')']) (by decide)).append
      (Member.inkEnd_printedType h.returnType)
  refine isContent_symbol m.access ?_
    ((inkEnd_of_ink h.name.ink).append hparens)
  intro e he hmem
  obtain ⟨hword, htype, hcolon, hspace, hleft, hright⟩ := reserved_spec e he
  simp only [List.mem_append, List.mem_cons, hleft, hright, false_or] at hmem
  rcases hmem with hmem | hmem
  · exact h.name.not_mem hword hmem
  · exact Member.not_mem_printedType h.returnType htype hcolon hspace hmem

/-- A block that can be written: a name and content lines. -/
structure BareBlock.Canonical (b : BareBlock) : Prop where
  name : IsName b.name
  content : ∀ l ∈ b.content, IsContent l

theorem Diagram.Canonical.declared {d : Diagram} (h : d.Canonical) :
    ∀ b ∈ d.declared, b.Canonical := by
  have hentity : ∀ {kind : EntityKind} {e : Entity}, e.Canonical kind →
      ∀ k, (e.block k).Canonical := by
    intro kind e he k
    refine ⟨he.name, fun l hl => ?_⟩
    rcases List.mem_append.mp hl with hl | hl
    · obtain ⟨a, ha, rfl⟩ := List.mem_map.mp hl
      exact (he.attributes a ha).isContent
    · obtain ⟨m, hm, rfl⟩ := List.mem_map.mp hl
      exact (he.methods m hm).isContent
  intro b hb
  rcases List.mem_append.mp hb with hb | hb
  · rcases List.mem_append.mp hb with hb | hb
    · obtain ⟨e, he, rfl⟩ := List.mem_map.mp hb
      exact hentity (h.classes e he) _
    · obtain ⟨e, he, rfl⟩ := List.mem_map.mp hb
      exact hentity (h.interfaces e he) _
  · obtain ⟨e, he, rfl⟩ := List.mem_map.mp hb
    refine ⟨(h.enums e he).name, fun l hl => ?_⟩
    obtain ⟨v, hv, rfl⟩ := List.mem_map.mp hl
    exact ((h.enums e he).values v hv).isContent

-- =============================================== lines without a block

/-- The quotes hide whatever a multiplicity holds from the walk. -/
theorem inert_printedCardinality {o : Option Cardinality}
    (h : ∀ c ∈ o, c.Canonical) : Inert (printedCardinality o) := by
  cases o with
  | none => exact fun _ _ _ => rfl
  | some c =>
      have hspace : Plain [' '] := by decide
      have hquoted := inert_quoted (h c rfl).token.1.unquoted
      have hall := hquoted.append hspace.inert
      rwa [List.cons_append, List.append_assoc] at hall

/-- A relation is inert to the walk for blocks. -/
theorem Relation.Canonical.inert {r : Relation} (h : r.Canonical) :
    Inert r.printed ∧ isComment r.printed = false := by
  have hspace : Plain [' '] := by decide
  have hsymbol : Plain r.symbol.toList := by
    obtain ⟨arrow, -, harrow⟩ := h.symbol
    rw [harrow]
    cases arrow <;> decide
  have hsource := h.source.isContent
  refine ⟨hsource.plain.inert.append (hspace.inert.append
    ((inert_printedCardinality h.fromCardinality).append
      (hsymbol.inert.append (hspace.inert.append
        ((inert_printedCardinality h.toCardinality).append
          h.target.isContent.plain.inert))))), ?_⟩
  obtain ⟨c, rest, hcons, hc⟩ := h.source.exists_cons
  have hquote : c ≠ '\'' := ne_of_isWord hc (by decide)
  unfold isComment Relation.printed
  rw [hcons, List.cons_append, trimStart_cons_of_ink (isBlank_of_isWord hc)]
  simpa using hquote

-- ============================================ lines without a relation

/-- A line whose only stroke may be its first character encodes no
relation. -/
theorem Relation.ofLine?_of_strokeless {l : List Char} (htrim : trim l = l)
    (h : ∀ e ∈ l.tail, e ≠ '-' ∧ e ≠ '.') : Relation.ofLine? l = .ok none := by
  have hfind : Arrow.find? l = none := Arrow.findFrom?_of_tail h
  have hline : RelationLine.ofLine l = .absent := by
    unfold RelationLine.ofLine
    simp only [htrim, hfind, ite_self]
  unfold Relation.ofLine?
  rw [hline]

/-- The opening line of a block encodes no relation. -/
theorem BareBlock.Canonical.ofLine?_opening {b : BareBlock}
    (h : b.Canonical) : Relation.ofLine? b.opening = .ok none := by
  obtain ⟨c, s, htext, hc, hs⟩ : ∃ c s, b.keyword.text.toList = c :: s
      ∧ isBlank c = false ∧ '-' ∉ s ∧ '.' ∉ s := by
    cases b.keyword
    · exact ⟨'c', "lass".toList, rfl, by decide⟩
    · exact ⟨'i', "nterface".toList, rfl, by decide⟩
    · exact ⟨'e', "num".toList, rfl, by decide⟩
  have hsplit : b.opening = c :: (s ++ ' ' :: (b.name ++ [' ', '\x7b'])) := by
    simp [BareBlock.opening, htext]
  have hend : InkEnd (c :: (s ++ ' ' :: (b.name ++ [' ', '\x7b']))) := by
    have hbrace : InkEnd ['\x7b'] := inkEnd_of_ink (by decide)
    have hwhole := hbrace.append_left (by simp)
      (c :: (s ++ ' ' :: (b.name ++ [' '])))
    simpa using hwhole
  rw [hsplit]
  refine Relation.ofLine?_of_strokeless (trim_cons_of_inkEnd hc hend) ?_
  have hdash := h.name.not_mem (c := '-') (by decide)
  have hdot := h.name.not_mem (c := '.') (by decide)
  intro e he
  simp only [List.tail_cons, List.mem_append, List.mem_cons,
    List.not_mem_nil, or_false] at he
  constructor
  · rintro rfl
    simp [hs.1, hdash] at he
  · rintro rfl
    simp [hs.2, hdot] at he

/-- No line of a block encodes a relation. -/
theorem BareBlock.Canonical.ofLine?_eq_none {b : BareBlock}
    (h : b.Canonical) : ∀ l ∈ b.printed, Relation.ofLine? l = .ok none := by
  intro l hl
  rcases List.mem_cons.mp hl with rfl | hl
  · exact h.ofLine?_opening
  · rcases List.mem_append.mp hl with hl | hl
    · exact Relation.ofLine?_of_strokeless (h.content l hl).trimmed
        (h.content l hl).strokeless
    · rw [List.mem_singleton.mp hl]
      exact Relation.ofLine?_of_strokeless (by decide) (by simp)

-- ===================================================== lines in a text

/-- A line that is found again in a text. -/
structure IsLine (l : List Char) : Prop where
  unbroken : '\n' ∉ l ∧ '\r' ∉ l
  unmarked : l.head? ≠ some '\uFEFF'

theorem BareBlock.Canonical.isLine {b : BareBlock} (h : b.Canonical) :
    ∀ l ∈ b.printed, IsLine l := by
  intro l hl
  rcases List.mem_cons.mp hl with rfl | hl
  · have hfeed := h.name.not_mem (c := '\n') (by decide)
    have hreturn := h.name.not_mem (c := '\r') (by decide)
    unfold BareBlock.opening
    refine ⟨⟨?_, ?_⟩, ?_⟩
    · cases b.keyword <;> simp [Keyword.text, hfeed]
    · cases b.keyword <;> simp [Keyword.text, hreturn]
    · cases b.keyword <;> simp [Keyword.text]
  · rcases List.mem_append.mp hl with hl | hl
    · exact ⟨(h.content l hl).unbroken, (h.content l hl).unmarked⟩
    · rw [List.mem_singleton.mp hl]
      exact ⟨by decide, by decide⟩

/-- A character that is neither in a name, a symbol or a multiplicity nor
a separator is not in a relation. -/
theorem Relation.Canonical.not_mem_printed {r : Relation} (h : r.Canonical)
    {e : Char} (hword : isWord e = false) (hspace : e ≠ ' ')
    (hquote : e ≠ '"') (harrows : ∀ arrow ∈ Arrow.all, e ∉ arrow.text.toList)
    (hraw : ∀ c : Cardinality, c.Canonical → e ∉ c.raw.toList) :
    e ∉ r.printed := by
  have hcardinality : ∀ {o : Option Cardinality}, (∀ c ∈ o, c.Canonical) →
      e ∉ printedCardinality o := by
    intro o ho
    cases o with
    | none => simp [printedCardinality]
    | some c => simp [printedCardinality, hspace, hquote, hraw c (ho c rfl)]
  obtain ⟨arrow, harrow, hsymbol⟩ := h.symbol
  unfold Relation.printed
  simp only [List.mem_append, List.mem_cons, hspace, false_or, not_or]
  exact ⟨h.source.not_mem hword, hcardinality h.fromCardinality,
    hsymbol ▸ harrows arrow harrow, hcardinality h.toCardinality,
    h.target.not_mem hword⟩

theorem Relation.Canonical.isLine {r : Relation} (h : r.Canonical) :
    IsLine r.printed := by
  refine ⟨⟨?_, ?_⟩, ?_⟩
  · exact h.not_mem_printed (by decide) (by decide) (by decide) (by decide)
      fun c hc => hc.token.1.unbroken.1
  · exact h.not_mem_printed (by decide) (by decide) (by decide) (by decide)
      fun c hc => hc.token.1.unbroken.2
  · have hmark := h.source.isContent.unmarked
    obtain ⟨c, rest, hcons, -⟩ := h.source.exists_cons
    unfold Relation.printed
    rw [hcons] at hmark ⊢
    exact hmark

end ApiScaffold
