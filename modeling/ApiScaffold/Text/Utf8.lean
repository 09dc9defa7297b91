/-
Bytes as text, whatever they are. Bytes that are no UTF-8 become
replacement characters, one for each longest start of a sequence that
cannot go on.
-/

namespace ApiScaffold

/-- A sequence that has begun: the value so far, the bytes that are to
come, and the bounds of the next one. -/
structure PendingChar where
  value : Nat
  remaining : Nat
  low : Nat := 0x80
  high : Nat := 0xBF
deriving Inhabited, Repr, DecidableEq

namespace PendingChar

/-- What a first byte begins: a character, a longer sequence or
nothing. -/
def begin? (b : Nat) : Option PendingChar :=
  if b < 0x80 then some ⟨b, 0, 0x80, 0xBF⟩
  else if 0xC2 ≤ b && b ≤ 0xDF then some ⟨b - 0xC0, 1, 0x80, 0xBF⟩
  else if b == 0xE0 then some ⟨0, 2, 0xA0, 0xBF⟩
  else if b == 0xED then some ⟨0xD, 2, 0x80, 0x9F⟩
  else if 0xE1 ≤ b && b ≤ 0xEF then some ⟨b - 0xE0, 2, 0x80, 0xBF⟩
  else if b == 0xF0 then some ⟨0, 3, 0x90, 0xBF⟩
  else if 0xF1 ≤ b && b ≤ 0xF3 then some ⟨b - 0xF0, 3, 0x80, 0xBF⟩
  else if b == 0xF4 then some ⟨4, 3, 0x80, 0x8F⟩
  else none

/-- The sequence with one more byte, if the byte may follow. -/
def next? (p : PendingChar) (b : Nat) : Option PendingChar :=
  if p.low ≤ b && b ≤ p.high then
    some ⟨p.value * 64 + (b - 0x80), p.remaining - 1, 0x80, 0xBF⟩
  else none

end PendingChar

/-- A byte that begins a sequence. -/
def beginChar (b : Nat) : List Char × Option PendingChar :=
  match PendingChar.begin? b with
  | some p => if p.remaining = 0 then ([Char.ofNat p.value], none) else ([], some p)
  | none => (['\uFFFD'], none)

/-- The characters that one more byte completes, and the sequence that is
open after it. -/
def acceptByte (isOpen : Option PendingChar) (b : Nat) :
    List Char × Option PendingChar :=
  match isOpen with
  | none => beginChar b
  | some p => match p.next? b with
    | some q => if q.remaining = 0 then ([Char.ofNat q.value], none) else ([], some q)
    | none =>
      let (chars, isOpen) := beginChar b
      ('\uFFFD' :: chars, isOpen)

/-- The text of bytes. -/
def decodeBytes (isOpen : Option PendingChar) : List UInt8 → List Char
  | [] => if isOpen.isSome then ['\uFFFD'] else []
  | b :: bs =>
    let (chars, isOpen) := acceptByte isOpen b.toNat
    chars ++ decodeBytes isOpen bs

end ApiScaffold
