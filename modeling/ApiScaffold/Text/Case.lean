/-
Full case mappings. Most characters map one to one; a few grow (the
dotted capital I in lower case, sharp s in upper case), and a capital
sigma becomes the final form at the end of a word: when a cased letter
stands before it and none after it, characters such as apostrophes and
accents being looked through on both sides.
-/
import ApiScaffold.Text.CaseTable

namespace ApiScaffold

/-- The image of one character under a table of expansions and runs. -/
private def imageOf (expansions : List (Nat × List Nat)) (runs : CaseRuns)
    (c : Char) : List Char :=
  match expansions.lookup c.toNat with
  | some ns => ns.map Char.ofNat
  | none => match runs.image? c.toNat with
    | some n => [Char.ofNat n]
    | none => [c]

/-- Lower case of a character that is not a capital sigma. -/
def lowerChar (c : Char) : List Char :=
  if c.toNat < 128 then [c.toLower] else imageOf lowerExpansions lowerRuns c

/-- Above ASCII a character becomes its long form, or its other form, or
stays as it is. -/
theorem lowerChar_of_above {c : Char} (h : ¬ c.toNat < 128) :
    lowerChar c = (lowerExpansions.lookup c.toNat).elim
      ((lowerRuns.image? c.toNat).elim [c] fun n => [Char.ofNat n])
      fun ns => ns.map Char.ofNat := by
  unfold lowerChar imageOf
  rw [if_neg h]
  cases lowerExpansions.lookup c.toNat with
  | some ns => rfl
  | none => cases lowerRuns.image? c.toNat <;> rfl

/-- Upper case of a character. -/
def upperChar (c : Char) : List Char :=
  if c.toNat < 128 then [c.toUpper] else imageOf upperExpansions upperRuns c

-- ========================================================= final sigma

/-- Whether the first character that is not looked through is a letter
with case. -/
def startsCased (cs : List Char) : Bool :=
  match cs.dropWhile fun c => caseIgnorableRanges.contains c.toNat with
  | c :: _ => casedRanges.contains c.toNat
  | [] => false

/-- The lower case of a text whose preceding characters, nearest first,
are `before`. -/
def lowerAfter (before : List Char) : List Char → List Char
  | [] => []
  | c :: cs =>
    let image :=
      if c = 'Σ' then
        if startsCased before && !startsCased cs then ['ς'] else ['σ']
      else lowerChar c
    image ++ lowerAfter (c :: before) cs

/-- The lower case of a text. -/
def lower (cs : List Char) : List Char := lowerAfter [] cs

/-- The upper case of a text. -/
def upper (cs : List Char) : List Char := cs.flatMap upperChar

/-- The lower case of a string. -/
def lowerText (s : String) : String := String.ofList (lower s.toList)

/-- The upper case of a string. -/
def upperText (s : String) : String := String.ofList (upper s.toList)

end ApiScaffold
