/-
Regular patterns over characters, matched against whole texts. Matching
takes the derivative of the pattern by each character in turn: the
pattern of what may follow that character. A text matches when what
remains of the pattern after its last character accepts the empty text.
-/

namespace ApiScaffold

/-- A regular pattern. -/
inductive Pattern where
  /-- No text at all. -/
  | never
  /-- The empty text. -/
  | done
  /-- One character of a class. -/
  | one (accepts : Char → Bool)
  | seq (p q : Pattern)
  | alt (p q : Pattern)
  /-- Any number of repetitions. -/
  | many (p : Pattern)

namespace Pattern

/-- Whether a pattern accepts the empty text. -/
def acceptsEmpty : Pattern → Bool
  | never => false
  | done => true
  | one _ => false
  | seq p q => p.acceptsEmpty && q.acceptsEmpty
  | alt p q => p.acceptsEmpty || q.acceptsEmpty
  | many _ => true

/-- A sequence, simplified where one part settles it. -/
def andThen : Pattern → Pattern → Pattern
  | never, _ => never
  | done, q => q
  | p, q => seq p q

/-- An alternative, simplified where one part accepts nothing. -/
def orElse : Pattern → Pattern → Pattern
  | never, q => q
  | p, never => p
  | p, q => alt p q

/-- The pattern of what may follow a character. -/
def derivative (c : Char) : Pattern → Pattern
  | never => never
  | done => never
  | one accepts => if accepts c then done else never
  | seq p q =>
    let first := (p.derivative c).andThen q
    if p.acceptsEmpty then first.orElse (q.derivative c) else first
  | alt p q => (p.derivative c).orElse (q.derivative c)
  | many p => (p.derivative c).andThen (many p)

/-- Whether the whole text matches. -/
def accepts (p : Pattern) : List Char → Bool
  | [] => p.acceptsEmpty
  | c :: cs => (p.derivative c).accepts cs

-- ============================================================= building

/-- One given character. -/
def char (c : Char) : Pattern := one (· == c)

/-- One of the characters of a string. -/
def among (cs : String) : Pattern := one cs.toList.contains

/-- A given text. -/
def word (s : String) : Pattern := s.toList.foldr (fun c p => (char c).andThen p) done

/-- Patterns one after another. -/
def sequence (ps : List Pattern) : Pattern := ps.foldr andThen done

/-- Any one of several patterns. -/
def anyOf (ps : List Pattern) : Pattern := ps.foldr orElse never

/-- A pattern that may be left out. -/
def optional (p : Pattern) : Pattern := alt done p

/-- One or more repetitions. -/
def some (p : Pattern) : Pattern := seq p (many p)

/-- A decimal digit of ASCII. -/
def digit : Pattern := one Char.isDigit

end Pattern

end ApiScaffold
