/-
Relation lines in every spelling. `LineSpelling` is a relation line as data:
two ends with an arrow between them, blanks around and between the tokens,
and a label behind a colon. At each end a multiplicity may stand before or
behind the name.

The line is followed through the readers in the order in which they take it.
Trimming takes the blanks off and keeps the label (`trim_text`); the source
is passed over by the search for the arrow, so that the line is cut where the
arrow was written; the label ends at the first colon, since the one in front
of it stands outside quotes; and on either side the tokens are the name and
the multiplicity, of which the first is no multiplicity and the second is no
name (`ofLine_text`).
-/
import ApiScaffold.Proofs.Diagram.CountSpelling
import ApiScaffold.Proofs.Diagram.MemberLine

namespace ApiScaffold

-- =================================================== statement vocabulary

/-- Where the multiplicity of an end stands, if it has one. -/
inductive CountPlace where
  | absent
  | behindName (gap : Gap) (count : CountSpelling)
  | beforeName (count : CountSpelling) (gap : Gap)

/-- An end of a relation as it is written. -/
structure EndSpelling where
  name : List Char
  endpoint : IsEndpoint name
  place : CountPlace

namespace EndSpelling

/-- The multiplicity of an end. -/
def count? (e : EndSpelling) : Option CountSpelling :=
  match e.place with
  | .absent => none
  | .behindName _ count => some count
  | .beforeName count _ => some count

/-- The multiplicity of an end without its quotes. -/
def token? (e : EndSpelling) : Option (List Char) :=
  e.count?.map CountSpelling.token

def text (e : EndSpelling) : List Char :=
  match e.place with
  | .absent => e.name
  | .behindName gap count => e.name ++ (gap.text ++ count.text)
  | .beforeName count gap => count.text ++ (gap.text ++ e.name)

end EndSpelling

/-- A relation as it is written on a line. -/
structure LineSpelling where
  indent : List Char
  blank_indent : AllBlank indent
  source : EndSpelling
  gap : Gap
  arrow : Arrow
  gap' : Gap
  target : EndSpelling
  trail : List Char
  blank_trail : AllBlank trail
  label : Option (List Char)

namespace LineSpelling

/-- The part of a line that is neither indentation nor what follows the
target. -/
def core (l : LineSpelling) : List Char :=
  l.source.text ++ l.gap.text ++ (l.arrow.text.toList ++ (l.gap'.text ++ l.target.text))

/-- What follows the target: blanks and a label behind a colon. -/
def rest (l : LineSpelling) : List Char :=
  l.trail ++ match l.label with
    | none => []
    | some label => ':' :: label

def text (l : LineSpelling) : List Char := l.indent ++ (l.core ++ l.rest)

end LineSpelling

-- ================================================================ ends

/-- A name is no multiplicity. -/
theorem tokenCardinality?_name {s : List Char} (h : IsEndpoint s) :
    tokenCardinality? s = none := by
  obtain ⟨d, hd, hdigit⟩ := h.not_numeric
  have hword := h.word d hd
  have hnumeric : isNumericToken s = false := by
    unfold isNumericToken
    refine Bool.and_eq_false_iff.mpr (Or.inl (List.all_eq_false.mpr ⟨d, hd, ?_⟩))
    have hdot : d ≠ '.' := ne_of_isWord hword (by decide)
    have hstar : d ≠ '*' := ne_of_isWord hword (by decide)
    simp [hdigit, hdot, hstar]
  obtain ⟨c, r, hcons, hc⟩ := h.exists_cons
  have hquote : unquote? s = none := by
    rw [hcons]
    unfold unquote?
    split
    next rest heq =>
      injection heq with heq
      exact absurd heq (ne_of_isWord hc (by decide))
    next => rfl
  have hstar : s ≠ ['*'] := by
    intro heq
    rw [heq, List.mem_singleton] at hd
    exact absurd hword (hd ▸ by decide)
  unfold tokenCardinality?
  rw [hquote]
  simp [hnumeric, hstar]

namespace IsName

variable {w : List Char}

theorem endTokens_append (h : IsName w) {rest : List Char}
    (hrest : ∀ c ∈ rest.head?, isBlank c = true) :
    endTokens (w ++ rest) = w :: endTokens rest :=
  endTokens_ink_append h.ne_nil h.ink (h.not_mem (by decide)) hrest

theorem endTokens_self (h : IsName w) : endTokens w = [w] := by
  have hone : endTokens (w ++ []) = w :: endTokens [] :=
    h.endTokens_append (by simp)
  rwa [List.append_nil, endTokens_nil] at hone

theorem unlabelled (h : IsName w) : Unlabelled w :=
  unlabelled_plain (h.not_mem (by decide)) (h.not_mem (by decide))

end IsName

namespace EndSpelling

variable (e : EndSpelling)

/-- An end as it is read. -/
def read : RelationEnd where
  name := e.name
  cardinality := e.token?.map trim

/-- The tokens of an end are its name and its multiplicity. -/
theorem ofText?_text : RelationEnd.ofText? e.text = some e.read := by
  have hname := tokenCardinality?_name e.endpoint
  have hisName := e.endpoint.toIsName
  obtain ⟨name, endpoint, place⟩ := e
  cases place with
  | absent =>
      have htokens : endTokens name = [name] := hisName.endTokens_self
      unfold RelationEnd.ofText? text
      simp only [htokens]
      simp [hname, read, token?, count?]
  | behindName gap count =>
      have hcount := count.tokenCardinality?_text
      have hlast : endTokens (count.text ++ []) = count.text :: endTokens [] :=
        count.endTokens_append (by simp)
      rw [List.append_nil, endTokens_nil] at hlast
      have htokens : endTokens (name ++ (gap.text ++ count.text))
          = [name, count.text] := by
        rw [hisName.endTokens_append (gap.head?_blank _),
          endTokens_blanks_append gap.blank, hlast]
      unfold RelationEnd.ofText? text
      simp only [htokens]
      simp [hname, hcount, read, token?, count?]
  | beforeName count gap =>
      have hcount := count.tokenCardinality?_text
      have htokens : endTokens (count.text ++ (gap.text ++ name))
          = [count.text, name] := by
        rw [count.endTokens_append (gap.head?_blank _),
          endTokens_blanks_append gap.blank, hisName.endTokens_self]
      unfold RelationEnd.ofText? text
      simp only [htokens]
      simp [hname, hcount, read, token?, count?]

/-- No label starts in an end. -/
theorem unlabelled : Unlabelled e.text := by
  have hname := e.endpoint.toIsName.unlabelled
  unfold text
  split
  next => exact hname
  next gap count _ =>
    exact hname.append ((unlabelled_blanks gap.blank).append count.unlabelled)
  next count gap _ =>
    exact count.unlabelled.append ((unlabelled_blanks gap.blank).append hname)

/-- No arrow starts in an end that a gap follows. -/
theorem passed (gap : Gap) : Arrow.Passed (e.text ++ gap.text) := by
  have hname : ∀ gap : Gap, Arrow.Passed (e.name ++ gap.text) :=
    fun gap => gap.passed_append fun b hb => Arrow.passed_word e.endpoint.word hb
  have hcount : ∀ (count : CountSpelling) (gap : Gap),
      Arrow.Passed (count.text ++ gap.text) :=
    fun count gap => gap.passed_append fun b hb => count.passed hb
  unfold text
  split
  next => exact hname gap
  next inner count _ =>
    have hboth := (hname inner).append (hcount count gap)
    simpa using hboth
  next count inner _ =>
    have hboth := (hcount count inner).append (hname gap)
    simpa using hboth

/-- An end of a relation starts and ends in ink, and no comment starts with
it. -/
theorem ends : (∃ c r, e.text = c :: r ∧ isBlank c = false ∧ c ≠ '\'')
    ∧ InkEnd e.text := by
  obtain ⟨c, r, hcons, hc⟩ := e.endpoint.exists_cons
  have hstart : isBlank c = false ∧ c ≠ '\'' :=
    ⟨isBlank_of_isWord hc, ne_of_isWord hc (by decide)⟩
  have hend : InkEnd e.name := inkEnd_of_ink e.endpoint.ink
  unfold text
  split
  next => exact ⟨⟨c, r, hcons, hstart⟩, hend⟩
  next gap count _ =>
    refine ⟨⟨c, _, by rw [hcons]; rfl, hstart⟩, ?_⟩
    exact (count.ends.2.append_left count.text_ne_nil _).append_left
      (by simp [count.text_ne_nil]) _
  next count gap _ =>
    obtain ⟨d, s, hcount, hd⟩ := count.ends.1
    refine ⟨⟨d, _, by rw [hcount]; rfl, hd⟩, ?_⟩
    exact (hend.append_left e.endpoint.ne_nil _).append_left
      (by simp [e.endpoint.ne_nil]) _

theorem trim_text : trim e.text = e.text := by
  obtain ⟨⟨c, r, hcons, hc, -⟩, hend⟩ := e.ends
  rw [hcons] at hend ⊢
  exact trim_cons_of_inkEnd hc hend

theorem text_ne_nil : e.text ≠ [] := by
  obtain ⟨⟨c, r, hcons, -⟩, -⟩ := e.ends
  simp [hcons]

end EndSpelling

-- =============================================================== lines

namespace LineSpelling

variable (l : LineSpelling)

/-- Blanks and a label without blanks at its end follow the target of a
trimmed line. -/
theorem trim_text : trim l.text = l.core ++ trimEnd l.rest := by
  obtain ⟨⟨c, r, hcons, hc, -⟩, -⟩ := l.source.ends
  have hcore : ∃ more, l.core = c :: more := by
    unfold core
    rw [hcons]
    exact ⟨_, rfl⟩
  obtain ⟨more, hmore⟩ := hcore
  have hne : l.gap'.text ++ l.target.text ≠ [] := by simp [l.target.text_ne_nil]
  have hend : InkEnd l.core := by
    have htarget := l.target.ends.2.append_left l.target.text_ne_nil l.gap'.text
    have harrow := htarget.append_left hne l.arrow.text.toList
    exact harrow.append_left (by simp [l.target.text_ne_nil]) _
  have htrim := trim_blanks_append (s := l.core ++ l.rest) l.blank_indent
    allBlank_nil
  rw [List.append_nil] at htrim
  unfold text
  rw [htrim]
  unfold trim
  have hstart : trimStart (l.core ++ l.rest) = l.core ++ l.rest := by
    rw [hmore]
    exact trimStart_cons_of_ink hc
  rw [hstart]
  exact trimEnd_append_of_inkEnd (by simp [hmore]) hend l.rest

/-- A label ends what is read of a line; what stands before it is blank. -/
theorem beforeLabel_rest :
    ∃ g, AllBlank g ∧ beforeLabel false (trimEnd l.rest) = g := by
  unfold rest
  cases l.label with
  | none =>
      refine ⟨[], allBlank_nil, ?_⟩
      have hnil := trimEnd_append_blanks (s := []) l.blank_trail
      simp only [List.append_nil]
      rw [List.nil_append] at hnil
      rw [hnil]
      rfl
  | some label =>
      refine ⟨l.trail, l.blank_trail, ?_⟩
      have hcolon : InkEnd (l.trail ++ [':']) :=
        (inkEnd_of_ink (s := [':']) (by decide)).append_left (by simp) _
      have htrim := trimEnd_append_of_inkEnd (by simp) hcolon label
      rw [List.append_assoc, List.append_assoc, List.singleton_append,
        List.singleton_append] at htrim
      rw [htrim, unlabelled_blanks l.blank_trail, beforeLabel, if_pos (by simp),
        List.append_nil]

/-- A relation line is read as its two ends and its arrow, however it is
spelled. -/
theorem ofLine_text : RelationLine.ofLine l.text
    = .between l.source.read l.arrow l.target.read := by
  refine RelationLine.ofLine_eq_between.mpr ?_
  obtain ⟨⟨c, r, hcons, hc, hcomment⟩, -⟩ := l.source.ends
  obtain ⟨b, g', hgap, hb, -⟩ := l.gap'.exists_cons
  obtain ⟨g, hg, hrest⟩ := l.beforeLabel_rest
  have hcut : Arrow.find? (l.core ++ trimEnd l.rest)
      = some ⟨l.source.text ++ l.gap.text, l.arrow,
        l.gap'.text ++ (l.target.text ++ trimEnd l.rest)⟩ := by
    have hfind := Arrow.find?_append_text (l.source.passed l.gap) l.arrow hb
      (g' ++ (l.target.text ++ trimEnd l.rest))
    rw [← List.cons_append, ← hgap] at hfind
    unfold core
    simpa using hfind
  have hleft : trim (l.source.text ++ l.gap.text) = l.source.text := by
    have htrim := trim_blanks_append (s := l.source.text) allBlank_nil l.gap.blank
    rwa [List.nil_append, l.source.trim_text] at htrim
  have hright : trim (beforeLabel false
      (l.gap'.text ++ (l.target.text ++ trimEnd l.rest))) = l.target.text := by
    have htrim := trim_blanks_append (s := l.target.text) l.gap'.blank hg
    rw [unlabelled_blanks l.gap'.blank, l.target.unlabelled, hrest,
      ← List.append_assoc, htrim, l.target.trim_text]
  refine ⟨?_, ⟨_, hcut ▸ congrArg Arrow.find? l.trim_text, rfl, ?_, ?_⟩⟩
  · rw [l.trim_text]
    unfold core
    rw [hcons]
    simpa using hcomment
  · rw [hleft, l.source.ofText?_text]
  · rw [hright, l.target.ofText?_text]

end LineSpelling

/-- A relation line gives its ends, its arrow and its multiplicities in every
spelling: with a multiplicity in quotes or bare, before or behind its name,
with any blanks around the tokens, and with any label. -/
theorem relation_read_in_every_spelling (l : LineSpelling)
    (h : ∀ token, token ∈ l.source.token? ∨ token ∈ l.target.token? →
      ShortRuns token) :
    ∃ low high, Cardinality.ofText? l.source.token? = .ok low
      ∧ Cardinality.ofText? l.target.token? = .ok high
      ∧ Relation.ofLine? l.text = .ok (some
        { source := String.ofList l.source.name
          target := String.ofList l.target.name
          kind := RelationKind.ofSymbol l.arrow.text
          symbol := l.arrow.text
          fromCardinality := low
          toCardinality := high }) := by
  obtain ⟨low, hlow⟩ := Cardinality.exists_ofText?_of_shortRuns
    fun token ht => h token (Or.inl ht)
  obtain ⟨high, hhigh⟩ := Cardinality.exists_ofText?_of_shortRuns
    fun token ht => h token (Or.inr ht)
  refine ⟨low, high, hlow, hhigh, ?_⟩
  unfold Relation.ofLine?
  rw [l.ofLine_text]
  unfold Relation.ofEnds EndSpelling.read
  simp only
  rw [Cardinality.ofText?_map_trim, Cardinality.ofText?_map_trim, hlow, hhigh]
  rfl

/-- A quoted number before its name on one side, a bare range behind it on
the other, and a label that holds an arrow and an open quote. -/
theorem relation_read_with_arrow_in_label :
    let tab : Gap := ⟨['\t'], by decide, by decide⟩
    let space : Gap := ⟨[' '], by decide, by decide⟩
    let one : Numeral := ⟨['1'], by decide, List.forall_mem_singleton.mpr (by decide)⟩
    let line : LineSpelling :=
      { indent := []
        blank_indent := allBlank_nil
        source := ⟨"Zoo".toList, by decide,
          .beforeName (.quoted [' ', '1'] (by decide)) tab⟩
        gap := space
        arrow := .aggregatesLeft
        gap' := space
        target := ⟨"Cat".toList, by decide, .behindName space
          (.bare (.between (some one) none) (by decide) (by simp))⟩
        trail := [' ']
        blank_trail := by decide
        label := some "--> \"".toList }
    line.text = "\" 1\"\tZoo o-- Cat 1..* :--> \"".toList
      ∧ (∀ token, token ∈ line.source.token? ∨ token ∈ line.target.token? →
        ShortRuns token)
      ∧ Relation.ofLine? line.text = .ok (some
        { source := "Zoo", target := "Cat"
          kind := .aggregation, symbol := "o--"
          fromCardinality := some { kind := .exact, raw := "1", value := some 1 }
          toCardinality := some
            { kind := .range, raw := "1..*", lower := some 1 } }) := by
  intro tab space one line
  have hshort : ∀ token,
      token ∈ line.source.token? ∨ token ∈ line.target.token? →
      ShortRuns token := by
    rintro token (⟨⟨⟩⟩ | ⟨⟨⟩⟩)
    · exact shortRuns_of_length_le (by decide)
    · exact shortRuns_of_length_le (by decide)
  obtain ⟨low, high, hlow, hhigh, hline⟩ :=
    relation_read_in_every_spelling line hshort
  have hexact : Cardinality.ofText? line.source.token?
      = .ok (some { kind := .exact, raw := "1", value := some 1 }) := by
    decide +kernel
  have hrange : Cardinality.ofText? line.target.token?
      = .ok (some { kind := .range, raw := "1..*", lower := some 1 }) := by
    decide +kernel
  injection hlow.symm.trans hexact with hlow
  injection hhigh.symm.trans hrange with hhigh
  have hsource : String.ofList line.source.name = "Zoo" := String.ofList_toList
  have htarget : String.ofList line.target.name = "Cat" := String.ofList_toList
  have hkind : RelationKind.ofSymbol line.arrow.text = .aggregation := by decide
  rw [hlow, hhigh, hsource, htarget, hkind] at hline
  exact ⟨by decide, hshort, hline⟩

end ApiScaffold
