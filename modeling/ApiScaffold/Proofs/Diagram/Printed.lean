/-
Writing a diagram as text, the way one writes it by hand: every class,
interface and enumeration as a block with one line for each member or
value, then every relation on a line of its own with its multiplicities in
quotes. `Canonical` says of which diagrams the text can be read back: names
and types are made of the characters that the readers take for them, and
what a relation says about itself agrees with its symbol and with the
tokens of its multiplicities.
-/
import ApiScaffold.Diagram.Parser
import ApiScaffold.Proofs.Diagram.Walk

namespace ApiScaffold

-- ============================================================= writing

/-- The visibility symbol of an access level. -/
def Access.symbol : Access → Char
  | .pub => '+'
  | .priv => '-'
  | .prot => '#'
  | .pkg => '~'

/-- A type behind a colon, if there is one. -/
def printedType : Option String → List Char
  | none => []
  | some t => ':' :: ' ' :: t.toList

/-- An attribute as a line. -/
def Attribute.printed (a : Attribute) : List Char :=
  a.access.symbol :: (a.name.toList ++ printedType a.type)

/-- A method as a line. -/
def Method.printed (m : Method) : List Char :=
  m.access.symbol :: (m.name.toList ++ '(' :: ')' :: printedType m.returnType)

/-- A block with the members of an entity. -/
def Entity.block (k : Keyword) (e : Entity) : BareBlock where
  keyword := k
  name := e.name.toList
  content := e.attributes.map Attribute.printed ++ e.methods.map Method.printed

/-- A block with the values of an enumeration. -/
def Enumeration.block (e : Enumeration) : BareBlock where
  keyword := .enumBlock
  name := e.name.toList
  content := e.values.map String.toList

/-- The line of a block that its content follows. -/
def BareBlock.opening (b : BareBlock) : List Char :=
  b.keyword.text.toList ++ ' ' :: (b.name ++ [' ', '\x7b'])

/-- A block as lines. -/
def BareBlock.printed (b : BareBlock) : List (List Char) :=
  b.opening :: (b.content ++ [['\x7d']])

/-- The token of a multiplicity in quotes, if there is one, and a space. -/
def printedCardinality : Option Cardinality → List Char
  | none => []
  | some c => '"' :: (c.raw.toList ++ ['"', ' '])

/-- A relation as a line. -/
def Relation.printed (r : Relation) : List Char :=
  r.source.toList ++ ' ' :: (printedCardinality r.fromCardinality
    ++ (r.symbol.toList
      ++ ' ' :: (printedCardinality r.toCardinality ++ r.target.toList)))

namespace Diagram

/-- The blocks of a diagram: classes, interfaces, enumerations. -/
def declared (d : Diagram) : List BareBlock :=
  d.classes.map (Entity.block .classBlock)
    ++ d.interfaces.map (Entity.block .interfaceBlock)
    ++ d.enums.map Enumeration.block

/-- A diagram as lines. -/
def printedLines (d : Diagram) : List (List Char) :=
  d.declared.flatMap BareBlock.printed ++ d.relations.map Relation.printed

/-- A diagram as a text, each line with a line feed. -/
def printed (d : Diagram) : String :=
  String.ofList (d.printedLines.flatMap (· ++ ['\n']))

end Diagram

-- ===================================================== canonical diagrams

/-- A name: identifier characters, at least one. -/
structure IsName (s : List Char) : Prop where
  ne_nil : s ≠ []
  word : ∀ c ∈ s, isWord c = true

/-- A type: type characters, at least one. -/
structure IsTypeToken (s : List Char) : Prop where
  ne_nil : s ≠ []
  type : ∀ c ∈ s, Member.isTypeChar c = true

structure Attribute.Canonical (a : Attribute) : Prop where
  name : IsName a.name.toList
  type : ∀ t ∈ a.type, IsTypeToken t.toList

structure Method.Canonical (m : Method) : Prop where
  name : IsName m.name.toList
  returnType : ∀ t ∈ m.returnType, IsTypeToken t.toList

/-- An entity of the kind that its block has. -/
structure Entity.Canonical (kind : EntityKind) (e : Entity) : Prop where
  kind_eq : e.kind = kind
  name : IsName e.name.toList
  attributes : ∀ a ∈ e.attributes, a.Canonical
  methods : ∀ m ∈ e.methods, m.Canonical

structure Enumeration.Canonical (e : Enumeration) : Prop where
  name : IsName e.name.toList
  values : ∀ v ∈ e.values, IsName v.toList

/-- A name that is no bare multiplicity. -/
structure IsEndpoint (s : List Char) : Prop extends IsName s where
  not_numeric : ∃ c ∈ s, c.isDigit = false

/-- A token that can stand in quotes on a line. -/
structure IsToken (s : List Char) : Prop where
  ne_nil : s ≠ []
  trimmed : trim s = s
  unquoted : '"' ∉ s
  unbroken : '\n' ∉ s ∧ '\r' ∉ s

/-- A multiplicity as it is read from a token. A token with a numeral
beyond the limit gives none. -/
def Cardinality.Canonical (c : Cardinality) : Prop :=
  ∃ s, IsToken s ∧ Cardinality.ofText s = .ok (some c)

structure Relation.Canonical (r : Relation) : Prop where
  source : IsEndpoint r.source.toList
  target : IsEndpoint r.target.toList
  symbol : ∃ arrow ∈ Arrow.all, r.symbol = arrow.text
  kind : r.kind = RelationKind.ofSymbol r.symbol
  fromCardinality : ∀ c ∈ r.fromCardinality, c.Canonical
  toCardinality : ∀ c ∈ r.toCardinality, c.Canonical

/-- A diagram that survives being written and read. -/
structure Diagram.Canonical (d : Diagram) : Prop where
  classes : ∀ e ∈ d.classes, e.Canonical .classEntity
  interfaces : ∀ e ∈ d.interfaces, e.Canonical .interfaceEntity
  enums : ∀ e ∈ d.enums, e.Canonical
  relations : ∀ r ∈ d.relations, r.Canonical

-- ====================================================== multiplicities

namespace Cardinality

theorem raw_of_ofToken {s : List Char} {c : Cardinality}
    (h : ofToken s = .ok c) : c.raw = String.ofList s := by
  unfold ofToken at h
  simp only at h
  split at h
  · injection h with h
    rw [← h]
  split at h
  · cases hvalue : readNumeral s with
    | error e => rw [hvalue] at h; cases h
    | ok n =>
        rw [hvalue] at h
        injection h with h
        rw [← h]
  split at h
  next lower upper _ =>
    cases hlow : lower.value with
    | error e => rw [hlow] at h; cases h
    | ok low =>
        cases hhigh : upper.value with
        | error e => rw [hlow, hhigh] at h; cases h
        | ok high =>
            rw [hlow, hhigh] at h
            injection h with h
            rw [← h]
  next =>
    injection h with h
    rw [← h]

/-- A multiplicity keeps the token that it is read from. -/
theorem raw_of_ofText {s : List Char} {c : Cardinality}
    (h : ofText s = .ok (some c)) : c.raw.toList = trim s := by
  unfold ofText at h
  split at h
  next => cases h
  next token hne =>
    cases htoken : ofToken (trim s) with
    | error e => rw [htoken] at h; cases h
    | ok c' =>
        rw [htoken] at h
        injection h with h
        injection h with h
        rw [← h, raw_of_ofToken htoken, String.toList_ofList]

/-- What a canonical multiplicity keeps is the token that gives it. -/
theorem Canonical.token {c : Cardinality} (h : c.Canonical) :
    IsToken c.raw.toList ∧ ofText c.raw.toList = .ok (some c) := by
  obtain ⟨s, hs, htext⟩ := h
  rw [raw_of_ofText htext, hs.trimmed]
  exact ⟨hs, htext⟩

end Cardinality

-- =========================================================== decisions

instance (s : List Char) : Decidable (IsName s) :=
  decidable_of_iff (s ≠ [] ∧ s.all isWord = true)
    ⟨fun h => ⟨h.1, List.all_eq_true.mp h.2⟩,
      fun h => ⟨h.ne_nil, List.all_eq_true.mpr h.word⟩⟩

instance (s : List Char) : Decidable (IsTypeToken s) :=
  decidable_of_iff (s ≠ [] ∧ s.all Member.isTypeChar = true)
    ⟨fun h => ⟨h.1, List.all_eq_true.mp h.2⟩,
      fun h => ⟨h.ne_nil, List.all_eq_true.mpr h.type⟩⟩

instance (a : Attribute) : Decidable a.Canonical :=
  decidable_of_iff (IsName a.name.toList ∧ ∀ t ∈ a.type, IsTypeToken t.toList)
    ⟨fun h => ⟨h.1, h.2⟩, fun h => ⟨h.name, h.type⟩⟩

instance (m : Method) : Decidable m.Canonical :=
  decidable_of_iff
    (IsName m.name.toList ∧ ∀ t ∈ m.returnType, IsTypeToken t.toList)
    ⟨fun h => ⟨h.1, h.2⟩, fun h => ⟨h.name, h.returnType⟩⟩

instance (kind : EntityKind) (e : Entity) : Decidable (e.Canonical kind) :=
  decidable_of_iff
    (e.kind = kind ∧ IsName e.name.toList
      ∧ (∀ a ∈ e.attributes, a.Canonical) ∧ ∀ m ∈ e.methods, m.Canonical)
    ⟨fun h => ⟨h.1, h.2.1, h.2.2.1, h.2.2.2⟩,
      fun h => ⟨h.kind_eq, h.name, h.attributes, h.methods⟩⟩

instance (e : Enumeration) : Decidable e.Canonical :=
  decidable_of_iff (IsName e.name.toList ∧ ∀ v ∈ e.values, IsName v.toList)
    ⟨fun h => ⟨h.1, h.2⟩, fun h => ⟨h.name, h.values⟩⟩

instance (s : List Char) : Decidable (IsEndpoint s) :=
  decidable_of_iff (IsName s ∧ s.all Char.isDigit = false)
    ⟨fun h => ⟨h.1, by simpa using h.2⟩,
      fun h => ⟨h.toIsName, by simpa using h.not_numeric⟩⟩

instance (s : List Char) : Decidable (IsToken s) :=
  decidable_of_iff (s ≠ [] ∧ trim s = s ∧ '"' ∉ s ∧ '\n' ∉ s ∧ '\r' ∉ s)
    ⟨fun h => ⟨h.1, h.2.1, h.2.2.1, h.2.2.2⟩,
      fun h => ⟨h.ne_nil, h.trimmed, h.unquoted, h.unbroken⟩⟩

instance (c : Cardinality) : Decidable c.Canonical :=
  decidable_of_iff (IsToken c.raw.toList
      ∧ Cardinality.ofText c.raw.toList = .ok (some c))
    ⟨fun h => ⟨c.raw.toList, h⟩, fun h => h.token⟩

instance (r : Relation) : Decidable r.Canonical :=
  decidable_of_iff
    (IsEndpoint r.source.toList ∧ IsEndpoint r.target.toList
      ∧ (∃ arrow ∈ Arrow.all, r.symbol = arrow.text)
      ∧ r.kind = RelationKind.ofSymbol r.symbol
      ∧ (∀ c ∈ r.fromCardinality, c.Canonical)
      ∧ ∀ c ∈ r.toCardinality, c.Canonical)
    ⟨fun h => ⟨h.1, h.2.1, h.2.2.1, h.2.2.2.1, h.2.2.2.2.1, h.2.2.2.2.2⟩,
      fun h => ⟨h.source, h.target, h.symbol, h.kind, h.fromCardinality,
        h.toCardinality⟩⟩

instance (d : Diagram) : Decidable d.Canonical :=
  decidable_of_iff
    ((∀ e ∈ d.classes, e.Canonical .classEntity)
      ∧ (∀ e ∈ d.interfaces, e.Canonical .interfaceEntity)
      ∧ (∀ e ∈ d.enums, e.Canonical) ∧ ∀ r ∈ d.relations, r.Canonical)
    ⟨fun h => ⟨h.1, h.2.1, h.2.2.1, h.2.2.2⟩,
      fun h => ⟨h.classes, h.interfaces, h.enums, h.relations⟩⟩

end ApiScaffold
