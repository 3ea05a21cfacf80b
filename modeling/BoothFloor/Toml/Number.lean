import BoothFloor.Toml.Value

/-!
# Numbers, dates and times in configuration files

Which runs of characters stand for an integer, a number with a fraction or an exponent, or a date
and time. Integers have 64 bits with a sign; a positive number that no 64-bit float can hold is
refused.
-/

namespace BoothFloor.Toml

def isDigit (c : Char) : Bool := '0' ≤ c && c ≤ '9'

/-- The value of a hexadecimal digit. -/
def hexDigit? (c : Char) : Option Nat :=
  if '0' ≤ c ∧ c ≤ '9' then some (c.toNat - 48)
  else if 'a' ≤ c ∧ c ≤ 'f' then some (c.toNat - 87)
  else if 'A' ≤ c ∧ c ≤ 'F' then some (c.toNat - 55)
  else none

/-- The digits of a run in which single underscores may stand between digits. -/
def digits? (isDigit : Char → Bool) : List Char → Option (List Char)
  | [] => none
  | [c] => if isDigit c then some [c] else none
  | c :: '_' :: rest => if isDigit c then (digits? isDigit rest).map (c :: ·) else none
  | c :: rest => if isDigit c then (digits? isDigit rest).map (c :: ·) else none

/-- The number that some digits stand for. -/
def digitsValue (base : Nat) (cs : List Char) : Nat :=
  cs.foldl (fun n c => n * base + (hexDigit? c).getD 0) 0

/-- A run without its sign, and whether the sign is a minus. -/
def unsigned (cs : List Char) : Bool × List Char :=
  match cs with
  | '-' :: rest => (true, rest)
  | '+' :: rest => (false, rest)
  | _ => (false, cs)

/-- Decimal digits without needless zeros. -/
def wholeDigits? (cs : List Char) : Option (List Char) :=
  match cs with
  | ['0'] => some ['0']
  | '0' :: _ => none
  | _ => digits? isDigit cs

/-- An integer that fits 64 bits with a sign. -/
def word? (n : Int) : Option Int :=
  if Int64.minValue.toInt ≤ n ∧ n ≤ Int64.maxValue.toInt then some n else none

/-- Decimal with or without a sign, or hexadecimal, octal or binary behind a mark. -/
def integer? (cs : List Char) : Option Int :=
  match cs with
  | '0' :: 'x' :: rest => do
    let ds ← digits? (fun c => (hexDigit? c).isSome) rest
    word? (digitsValue 16 ds)
  | '0' :: 'o' :: rest => do
    let ds ← digits? (fun c => '0' ≤ c && c ≤ '7') rest
    word? (digitsValue 8 ds)
  | '0' :: 'b' :: rest => do
    let ds ← digits? (fun c => c == '0' || c == '1') rest
    word? (digitsValue 2 ds)
  | _ => do
    let (minus, body) := unsigned cs
    let ds ← wholeDigits? body
    let n : Int := digitsValue 10 ds
    word? (if minus then -n else n)

/-- Whether `m` times ten to the power `e` is rounded to infinity by a 64-bit float. -/
def overflows (m : Nat) (e : Int) : Bool :=
  let limit := Nat.pow 2 1024 - Nat.pow 2 970
  let width : Int := (Nat.toDigits 10 m).length + e
  if m = 0 || width ≤ 308 then false
  else if 309 < width then true
  else if 0 ≤ e then decide (limit ≤ m * Nat.pow 10 e.toNat)
  else decide (limit * Nat.pow 10 (-e).toNat ≤ m)

/-- Whether a run stands for a float: a whole part, then a fraction or an exponent or both, or the
name of a number that is none. -/
def isFloat (cs : List Char) : Bool :=
  let (minus, body) := unsigned cs
  if body = ['i', 'n', 'f'] || body = ['n', 'a', 'n'] then true
  else
    let mantissa := body.takeWhile fun c => c != 'e' && c != 'E'
    let exponent := body.drop mantissa.length
    let whole := mantissa.takeWhile (· != '.')
    let fraction := mantissa.drop whole.length
    let e? : Option Int :=
      match exponent with
      | [] => some 0
      | _ :: rest =>
        let (down, ds) := unsigned rest
        (digits? isDigit ds).map fun ds =>
          let n : Int := digitsValue 10 ds
          if down then -n else n
    let f? : Option (List Char) :=
      match fraction with
      | [] => some []
      | _ :: rest => digits? isDigit rest
    match wholeDigits? whole, f?, e? with
    | some w, some f, some e =>
      !(fraction.isEmpty && exponent.isEmpty) &&
        (minus || !overflows (digitsValue 10 (w ++ f)) (e - f.length))
    | _, _, _ => false

/-- Two digits, as a number from `low` to `high`. -/
def twoDigits (low high : Nat) (a b : Char) : Bool :=
  let n := digitsValue 10 [a, b]
  isDigit a && isDigit b && low ≤ n && n ≤ high

def daysIn (year month : Nat) : Nat :=
  if month = 2 then
    if year % 4 = 0 && (year % 100 != 0 || year % 400 = 0) then 29 else 28
  else if month = 4 || month = 6 || month = 9 || month = 11 then 30
  else 31

/-- Whether ten characters stand for a day of the calendar. -/
def isDate (cs : List Char) : Bool :=
  match cs with
  | [y1, y2, y3, y4, '-', m1, m2, '-', d1, d2] =>
    [y1, y2, y3, y4].all isDigit && twoDigits 1 12 m1 m2 &&
      twoDigits 1 (daysIn (digitsValue 10 [y1, y2, y3, y4]) (digitsValue 10 [m1, m2])) d1 d2
  | _ => false

/-- What may follow the whole seconds of a time: a fraction and, if allowed, an offset. -/
def isTimeEnd (offset : Bool) (cs : List Char) : Bool :=
  let afterFraction? : Option (List Char) :=
    match cs with
    | '.' :: rest =>
      if (rest.takeWhile isDigit).isEmpty then none else some (rest.dropWhile isDigit)
    | _ => some cs
  match afterFraction? with
  | none => false
  | some [] => true
  | some ['Z'] | some ['z'] => offset
  | some [sign, h1, h2, ':', m1, m2] =>
    offset && (sign == '+' || sign == '-') && twoDigits 0 23 h1 h2 && twoDigits 0 59 m1 m2
  | some _ => false

/-- Whether a run stands for a time of the day. -/
def isTime (offset : Bool) (cs : List Char) : Bool :=
  match cs with
  | h1 :: h2 :: ':' :: m1 :: m2 :: ':' :: s1 :: s2 :: rest =>
    twoDigits 0 23 h1 h2 && twoDigits 0 59 m1 m2 && twoDigits 0 60 s1 s2 && isTimeEnd offset rest
  | _ => false

/-- Whether a run stands for a day, a time, or a day and a time. -/
def isDatetime (cs : List Char) : Bool :=
  isTime false cs ||
    (isDate (cs.take 10) &&
      match cs.drop 10 with
      | [] => true
      | mark :: time => (mark == 'T' || mark == 't' || mark == ' ') && isTime true time)

/-- The value that a run stands for. -/
def scalar? (cs : List Char) : Option Value :=
  if cs = ['t', 'r', 'u', 'e'] then some (.boolean true)
  else if cs = ['f', 'a', 'l', 's', 'e'] then some (.boolean false)
  else
    match integer? cs with
    | some n => some (.integer n)
    | none =>
      if isDatetime cs then some (.datetime (String.ofList cs))
      else if isFloat cs then some (.float (String.ofList cs))
      else none

end BoothFloor.Toml
