/-!
# UTF-8

Characters as bytes, and bytes back as characters. Decoding never fails: a byte machine reads one
byte at a time, and every maximal run of bytes that begins a character but does not finish one is
read as a single U+FFFD.
-/

namespace BoothFloor.Utf8

/-- How many bytes a character takes. -/
def width (c : Char) : Nat :=
  if c.toNat < 0x80 then 1 else if c.toNat < 0x800 then 2 else if c.toNat < 0x10000 then 3 else 4

/-- How many bytes a text takes. -/
def size : List Char → Nat
  | [] => 0
  | c :: cs => width c + size cs

/-- The bytes of one character. -/
def encodeChar (c : Char) : List UInt8 :=
  let v := c.toNat
  if v < 0x80 then [UInt8.ofNat v]
  else if v < 0x800 then [UInt8.ofNat (0xC0 + v / 64), UInt8.ofNat (0x80 + v % 64)]
  else if v < 0x10000 then
    [UInt8.ofNat (0xE0 + v / 4096), UInt8.ofNat (0x80 + v / 64 % 64), UInt8.ofNat (0x80 + v % 64)]
  else
    [UInt8.ofNat (0xF0 + v / 262144), UInt8.ofNat (0x80 + v / 4096 % 64),
      UInt8.ofNat (0x80 + v / 64 % 64), UInt8.ofNat (0x80 + v % 64)]

/-- The bytes of a text. -/
def encode (cs : List Char) : List UInt8 := cs.flatMap encodeChar

/-- The character that stands for bytes which encode nothing. -/
def replacement : Char := '\ufffd'

/-- A character begun but not finished: how many bytes it still needs, between which bounds the next
one must lie, and the bits read so far. -/
structure Pending where
  need : Nat
  low : UInt8
  high : UInt8
  bits : Nat
  deriving DecidableEq, Repr

/-- What a byte gives where a character may begin. The bounds of the second byte keep out overlong
forms, surrogates and numbers above U+10FFFF. -/
def lead (b : UInt8) : List Char × Option Pending :=
  if b < 0x80 then ([Char.ofNat b.toNat], none)
  else if b < 0xC2 then ([replacement], none)
  else if b < 0xE0 then ([], some ⟨1, 0x80, 0xBF, b.toNat - 0xC0⟩)
  else if b < 0xF0 then
    ([], some ⟨2, if b = 0xE0 then 0xA0 else 0x80, if b = 0xED then 0x9F else 0xBF, b.toNat - 0xE0⟩)
  else if b < 0xF5 then
    ([], some ⟨3, if b = 0xF0 then 0x90 else 0x80, if b = 0xF4 then 0x8F else 0xBF, b.toNat - 0xF0⟩)
  else ([replacement], none)

/-- What a byte gives that continues `p`. -/
def Pending.feed (p : Pending) (b : UInt8) : List Char × Option Pending :=
  let bits := p.bits * 64 + (b.toNat - 0x80)
  if p.need ≤ 1 then ([Char.ofNat bits], none) else ([], some ⟨p.need - 1, 0x80, 0xBF, bits⟩)

/-- One byte of input: the characters it completes and the character left open. -/
def step : Option Pending → UInt8 → List Char × Option Pending
  | none, b => lead b
  | some p, b =>
    if p.low ≤ b ∧ b ≤ p.high then p.feed b
    else (replacement :: (lead b).1, (lead b).2)

/-- Read the remaining bytes; a character left open at the end is replaced. -/
def decodeFrom : Option Pending → List UInt8 → List Char
  | none, [] => []
  | some _, [] => [replacement]
  | open?, b :: bs => (step open? b).1 ++ decodeFrom (step open? b).2 bs

/-- The text that the bytes encode, with U+FFFD where they encode none. -/
def decode (bytes : List UInt8) : List Char := decodeFrom none bytes

end BoothFloor.Utf8
