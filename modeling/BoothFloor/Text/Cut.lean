import BoothFloor.Text.Utf8

/-!
# Cutting text to a number of bytes

The longest beginning of a text that fits a byte budget and ends on a character boundary, and the
part of a text before its first NUL.
-/

namespace BoothFloor.Text

/-- The longest prefix whose UTF-8 form has at most `budget` bytes. -/
def fitting : Nat → List Char → List Char
  | _, [] => []
  | budget, c :: cs =>
    if Utf8.width c ≤ budget then c :: fitting (budget - Utf8.width c) cs else []

/-- The part of a text before its first NUL. -/
def beforeNul (cs : List Char) : List Char := cs.takeWhile (· ≠ '\x00')

/-- The form in which a text with cap `max` arrives: cut at its first NUL, then to the cap. -/
def wired (max : Nat) (text : String) : String :=
  String.ofList (fitting max (beforeNul text.toList))

/-- How many bytes a text takes. -/
def byteSize (text : String) : Nat := Utf8.size text.toList

end BoothFloor.Text
