/-
Written relations are read back. A relation is written in one of the
spellings of its line (`Relation.spelling`): its multiplicities in quotes,
behind the name on the left and before it on the right, with a space between
the tokens. So the reading of spelled lines gives the relation again.
-/
import ApiScaffold.Proofs.Diagram.RelationSpelling

namespace ApiScaffold

-- ====================================================== multiplicities

namespace Cardinality

/-- A written multiplicity is read back. -/
theorem ofText?_raw {o : Option Cardinality} (h : ∀ c ∈ o, c.Canonical) :
    ofText? (o.map (·.raw.toList)) = .ok o := by
  cases o with
  | none => rfl
  | some c => exact (h c rfl).token.2

end Cardinality

/-- A single space. -/
def Gap.space : Gap := ⟨[' '], by decide, by decide⟩

namespace CountPlace

/-- A multiplicity in quotes behind its name, if there is one. -/
def quotedBehind : (o : Option Cardinality) → (∀ c ∈ o, c.Canonical) → CountPlace
  | none, _ => .absent
  | some c, h =>
      .behindName .space (.quoted c.raw.toList (h c rfl).token.1.unquoted)

/-- A multiplicity in quotes before its name, if there is one. -/
def quotedBefore : (o : Option Cardinality) → (∀ c ∈ o, c.Canonical) → CountPlace
  | none, _ => .absent
  | some c, h =>
      .beforeName (.quoted c.raw.toList (h c rfl).token.1.unquoted) .space

end CountPlace

-- =============================================================== lines

namespace Relation

variable {r : Relation} {arrow : Arrow}

/-- A relation with the arrow of its symbol, as it is spelled on its line. -/
def spelling (r : Relation) (h : r.Canonical) (arrow : Arrow) : LineSpelling where
  indent := []
  blank_indent := allBlank_nil
  source := ⟨r.source.toList, h.source,
    .quotedBehind r.fromCardinality h.fromCardinality⟩
  gap := .space
  arrow := arrow
  gap' := .space
  target := ⟨r.target.toList, h.target,
    .quotedBefore r.toCardinality h.toCardinality⟩
  trail := []
  blank_trail := allBlank_nil
  label := none

theorem text_spelling (h : r.Canonical) (harrow : r.symbol = arrow.text) :
    (r.spelling h arrow).text = r.printed := by
  obtain ⟨source, target, kind, symbol, low, high⟩ := r
  obtain rfl : symbol = arrow.text := harrow
  cases low <;> cases high <;>
    simp [LineSpelling.text, LineSpelling.core, LineSpelling.rest,
      EndSpelling.text, spelling, CountPlace.quotedBehind,
      CountPlace.quotedBefore, CountSpelling.text, Gap.space, printed,
      printedCardinality]

/-- The ends of a written relation keep the tokens of its multiplicities. -/
theorem read_spelling (h : r.Canonical) (arrow : Arrow) :
    (r.spelling h arrow).source.read
        = ⟨r.source.toList, r.fromCardinality.map (·.raw.toList)⟩
      ∧ (r.spelling h arrow).target.read
        = ⟨r.target.toList, r.toCardinality.map (·.raw.toList)⟩ := by
  have hsource := h.fromCardinality
  have htarget := h.toCardinality
  obtain ⟨source, target, kind, symbol, low, high⟩ := r
  constructor
  · cases low with
    | none => rfl
    | some c =>
        have htrim := (hsource c rfl).token.1.trimmed
        exact congrArg (fun t => RelationEnd.mk source.toList (some t)) htrim
  · cases high with
    | none => rfl
    | some c =>
        have htrim := (htarget c rfl).token.1.trimmed
        exact congrArg (fun t => RelationEnd.mk target.toList (some t)) htrim

theorem trim_printed (h : r.Canonical) : trim r.printed = r.printed := by
  have hend : InkEnd r.target.toList := inkEnd_of_ink h.target.ink
  have hrest := hend.append_left h.target.ne_nil
    (' ' :: (printedCardinality r.fromCardinality
      ++ (r.symbol.toList ++ ' ' :: printedCardinality r.toCardinality)))
  refine h.source.trim_append ?_
  simpa using hrest

/-- A written relation is the relation of its line. -/
theorem ofLine?_printed (h : r.Canonical) : ofLine? r.printed = .ok (some r) := by
  obtain ⟨arrow, -, harrow⟩ := h.symbol
  obtain ⟨hsource, htarget⟩ := read_spelling h arrow
  unfold ofLine?
  rw [← text_spelling h harrow, LineSpelling.ofLine_text, hsource, htarget]
  simp only
  unfold ofEnds
  rw [Cardinality.ofText?_raw h.fromCardinality,
    Cardinality.ofText?_raw h.toCardinality]
  show Except.ok (some _) = _
  have harrow' : (r.spelling h arrow).arrow = arrow := rfl
  rw [String.ofList_toList, String.ofList_toList, harrow', ← harrow, ← h.kind]

end Relation

end ApiScaffold
