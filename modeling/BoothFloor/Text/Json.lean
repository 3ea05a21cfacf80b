/-!
# Structured text

Values of the JSON data model, ways to build them and to take them apart, and their layout over several
lines: two blanks for each level, one element to a line, fields in the order in which they are given.
-/

namespace BoothFloor

/-- A value of the JSON data model with whole numbers only. -/
inductive Json where
  | null
  | bool (b : Bool)
  | num (n : Int)
  | str (s : String)
  | arr (items : List Json)
  | obj (fields : List (String × Json))

namespace Json

def ofNat (n : Nat) : Json := num n

def ofByte (b : UInt8) : Json := ofNat b.toNat

def ofOption {α : Type} (f : α → Json) : Option α → Json
  | some a => f a
  | none => null

def ofList {α : Type} (f : α → Json) (l : List α) : Json := arr (l.map f)

/-- A value behind the name of its variant. -/
def variant (name : String) (v : Json) : Json := obj [(name, v)]

def int? : Json → Option Int
  | num n => some n
  | _ => none

/-- A number that is not negative and has at most `bits` bits. -/
def word? (bits : Nat) : Json → Option Nat
  | num n => if 0 ≤ n ∧ n < Int.pow 2 bits then some n.toNat else none
  | _ => none

def byte? (v : Json) : Option UInt8 := (v.word? 8).map UInt8.ofNat

def str? : Json → Option String
  | str s => some s
  | _ => none

def bool? : Json → Option Bool
  | bool b => some b
  | _ => none

def items? : Json → Option (List Json)
  | arr items => some items
  | _ => none

/-- The value of a field. -/
def get? (v : Json) (key : String) : Option Json :=
  match v with
  | obj fields => fields.lookup key
  | _ => none

/-- A value that is nothing where the field is missing or null. -/
def optional? {α : Type} (read : Json → Option α) (v : Json) (key : String) : Option (Option α) :=
  match v.get? key with
  | none | some null => some none
  | some v => (read v).map some

/-- Four hexadecimal digits. -/
def hex4 (n : Nat) : List Char :=
  [n / 4096 % 16, n / 256 % 16, n / 16 % 16, n % 16].map fun d =>
    Char.ofNat (if d < 10 then 48 + d else 87 + d)

/-- A character within quotes; only what must be escaped is. -/
def escapeChar (c : Char) : List Char :=
  if c = '"' then ['\\', '"']
  else if c = '\\' then ['\\', '\\']
  else if c = '\n' then ['\\', 'n']
  else if c = '\r' then ['\\', 'r']
  else if c = '\t' then ['\\', 't']
  else if c = '\x08' then ['\\', 'b']
  else if c = '\x0c' then ['\\', 'f']
  else if c.toNat < 32 then '\\' :: 'u' :: hex4 c.toNat
  else [c]

/-- A text in quotes. -/
def quote (s : String) : String := String.ofList ('"' :: s.toList.flatMap escapeChar ++ ['"'])

/-- The blanks at the beginning of a line at some depth. -/
def margin (depth : Nat) : String := String.ofList (List.replicate (2 * depth) ' ')

/-- Elements one to a line between an opening and a closing bracket; nothing between them if there
are none. -/
def block (opening closing : String) (depth : Nat) (items : List String) : String :=
  if items.isEmpty then opening ++ closing
  else
    opening ++ "\n" ++
      String.intercalate ",\n" (items.map (margin (depth + 1) ++ ·)) ++
        "\n" ++ margin depth ++ closing

mutual

/-- The layout of a value whose first line begins at some depth. -/
def layout (depth : Nat) : Json → String
  | null => "null"
  | bool b => if b then "true" else "false"
  | num n => toString n
  | str s => quote s
  | arr items => block "[" "]" depth (layoutItems (depth + 1) items)
  | obj fields => block "\x7b" "\x7d" depth (layoutFields (depth + 1) fields)

def layoutItems (depth : Nat) : List Json → List String
  | [] => []
  | v :: rest => layout depth v :: layoutItems depth rest

def layoutFields (depth : Nat) : List (String × Json) → List String
  | [] => []
  | f :: rest => layoutField depth f :: layoutFields depth rest

def layoutField (depth : Nat) : String × Json → String
  | (key, value) => quote key ++ ": " ++ layout depth value

end

/-- The layout of a whole text. -/
def pretty (v : Json) : String := layout 0 v

end Json

end BoothFloor
