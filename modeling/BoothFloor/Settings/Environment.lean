import BoothFloor.Text.Blank
import BoothFloor.Text.Cut
import BoothFloor.Toml.Document
import BoothFloor.Toml.Overlay

/-!
# Settings in the environment

Variables whose names begin with the program's mark set single values or whole tables: the name gives
the path of a key, the text a value in a notation of its own, and a text that is not in that notation
stands for itself.
-/

namespace BoothFloor

namespace Environment

/-- A variable's name and its text. -/
abbrev Variables := List (String × String)

/-- The variable that some characters set, its name up to the first equals sign. -/
def ofLine (cs : List Char) : String × String :=
  let name := cs.takeWhile (· ≠ '=')
  (String.ofList name, String.ofList (cs.drop (name.length + 1)))

/-- The variables of a block in which each one ends with a NUL. -/
def ofBlock (cs : List Char) : Variables :=
  ((cs.splitOn '\x00').filter (!·.isEmpty)).map ofLine

/-- What the names of the program's variables begin with, in either case. -/
def mark : List Char := ['p', 'o', 'p', 'i', 'n', '_']

def isSpace (c : Char) : Bool := c == ' ' || c == '\t' || c == '\n' || c == '\x0c' || c == '\r'

def dropSpace (cs : List Char) : List Char := cs.dropWhile isSpace

/-- Characters that end a bare value. -/
def isSeparator (c : Char) : Bool :=
  c == ',' || c == '\x7b' || c == '\x7d' || c == '[' || c == ']'

/-- The digits of a decimal number with a point: some before or after it, and perhaps an exponent. -/
def isPointed (cs : List Char) : Bool :=
  let (_, body) := Toml.unsigned cs
  let whole := body.takeWhile Toml.isDigit
  match body.drop whole.length with
  | '.' :: rest =>
    let fraction := rest.takeWhile Toml.isDigit
    let exponent := rest.drop fraction.length
    !(whole.isEmpty && fraction.isEmpty) &&
      match exponent with
      | [] => true
      | e :: ds =>
        let (_, ds) := Toml.unsigned ds
        (e == 'e' || e == 'E') && !ds.isEmpty && ds.all Toml.isDigit
  | _ => false

/-- A bare value: a number if it looks like one and fits into 64 bits, with or without a sign; otherwise
text. -/
def bare (cs : List Char) : Toml.Value :=
  let (minus, digits) := Toml.unsigned cs
  if !digits.isEmpty && digits.all Toml.isDigit then
    let n : Int := Toml.digitsValue 10 digits
    let n := if minus then -n else n
    if Int64.minValue.toInt ≤ n && n < UInt64.size then .integer n else .text (String.ofList cs)
  else if isPointed cs then .float (String.ofList cs)
  else .text (String.ofList cs)

/-- Why a text cannot be read as a value. -/
inductive Misread where
  | malformed
  /-- It would have to be cut inside a character. -/
  | torn
  deriving DecidableEq, Repr

/-- The characters up to the closing double quote, escapes as they are, and what follows it. -/
def takeQuoted : List Char → Option (List Char × List Char)
  | '"' :: rest => some ([], rest)
  | '\\' :: c :: rest => (takeQuoted rest).map fun (cs, rest) => ('\\' :: c :: cs, rest)
  | c :: rest => (takeQuoted rest).map fun (cs, rest) => (c :: cs, rest)
  | [] => none

/-- The characters in the first `n` bytes of a text, if these end with a character. -/
def firstBytes (n : Nat) (cs : List Char) : Option (List Char) :=
  let start := Text.fitting n cs
  if Utf8.size start = n then some start else none

/-- Put the character of an escape behind the text before it, from the end. The characters in front of
the first escape are counted as bytes, and as many bytes of `all` are its text, which is short of an
end where a character has several bytes. The escape has `width` characters, and `rest` follows it. -/
def putEscaped (all : List Char) (text : Option (List Char)) (width : Nat) (rest : List Char)
    (c : Option Char) : Except Misread (List Char) :=
  let before :=
    match text with
    | some text => some text
    | none => (firstBytes (all.length - (rest.length + width)) all).map List.reverse
  match before, c with
  | none, _ => .error .torn
  | some _, none => .error .malformed
  | some before, some c => .ok (c :: before)

/-- Replace the escapes in the text between two quotes. What was read is in `text` from its end, once
there was an escape. -/
def unescape (all : List Char) (text : Option (List Char)) :
    List Char → Except Misread (List Char)
  | [] => .ok ((text.map List.reverse).getD all)
  | '\\' :: 'u' :: a :: b :: c :: d :: rest =>
    match putEscaped all text 6 rest (Toml.hexChar? [a, b, c, d]) with
    | .ok text => unescape all (some text) rest
    | .error e => .error e
  | '\\' :: 'U' :: a :: b :: c :: d :: e :: f :: g :: h :: rest =>
    match putEscaped all text 10 rest (Toml.hexChar? [a, b, c, d, e, f, g, h]) with
    | .ok text => unescape all (some text) rest
    | .error e => .error e
  | '\\' :: c :: rest =>
    match putEscaped all text 2 rest (Toml.escape? c) with
    | .ok text => unescape all (some text) rest
    | .error e => .error e
  | c :: rest =>
    if Toml.isPlain c then unescape all (text.map (c :: ·)) rest else .error .malformed

/-- The text up to the closing double quote, and what follows it. -/
def readQuoted (cs : List Char) : Except Misread (String × List Char) :=
  match takeQuoted cs with
  | none => .error .malformed
  | some (text, rest) => (unescape text none text).map fun text => (String.ofList text, rest)

/-- A key within braces. -/
def readKey (cs : List Char) : Except Misread (String × List Char) :=
  match dropSpace cs with
  | '"' :: rest => (readQuoted rest).map fun (key, rest) => (key, dropSpace rest)
  | cs =>
    let key := cs.takeWhile Toml.isBareKeyChar
    if key.isEmpty then .error .malformed
    else .ok (String.ofList key, dropSpace (cs.drop key.length))

/-- A key and the equals sign behind it. -/
def readKeyed (cs : List Char) : Except Misread (String × List Char) :=
  match readKey cs with
  | .ok (key, '=' :: rest) => .ok (key, rest)
  | .ok _ => .error .malformed
  | .error e => .error e

/-- Elements in brackets: an array of values, or pairs with keys if `keyed`. -/
def readElements (value : List Char → Except Misread (Toml.Value × List Char)) (keyed : Bool)
    (closing : Char) : Nat → List Char → Except Misread (Toml.Entries × List Char)
  | 0, _ => .error .malformed
  | fuel + 1, cs =>
    match cs with
    | [] => .error .malformed
    | c :: rest =>
      if c = closing then .ok ([], rest)
      else do
        let (key, cs) ← if keyed then readKeyed cs else .ok ("", cs)
        let (v, cs) ← value cs
        match cs with
        | ',' :: cs => do
          let (later, cs) ← readElements value keyed closing fuel cs
          return ((key, v) :: later, cs)
        | c :: cs => if c = closing then return ([(key, v)], cs) else .error .malformed
        | [] => .error .malformed

/-- A value and the space around it, with at most so many brackets within one another. -/
def readValue : Nat → List Char → Except Misread (Toml.Value × List Char)
  | 0, _ => .error .malformed
  | depth + 1, cs =>
    let found : Except Misread (Toml.Value × List Char) :=
      match dropSpace cs with
      | 't' :: 'r' :: 'u' :: 'e' :: rest => .ok (.boolean true, rest)
      | 'f' :: 'a' :: 'l' :: 's' :: 'e' :: rest => .ok (.boolean false, rest)
      | '\x7b' :: rest =>
        (readElements (readValue depth) true '\x7d' (rest.length + 1) rest).map fun (es, rest) =>
          (.table .inline (Toml.overlay [] es), rest)
      | '[' :: rest =>
        (readElements (readValue depth) false ']' (rest.length + 1) rest).map fun (es, rest) =>
          (.array false (es.map (·.2)), rest)
      | '"' :: rest => (readQuoted rest).map fun (text, rest) => (.text text, rest)
      | '\'' :: c :: '\'' :: rest => .ok (.text (String.ofList [c]), rest)
      | '\'' :: _ => .error .malformed
      | cs =>
        let run := cs.takeWhile (!isSeparator ·)
        .ok (bare (Text.trim run), cs.drop run.length)
    found.map fun (v, rest) => (v, dropSpace rest)

/-- The value that a variable's text stands for; a text that is nothing else is text. -/
def valueOf (text : String) : Except Misread Toml.Value :=
  match readValue (text.length + 1) text.toList with
  | .ok (v, []) => .ok v
  | .error .torn => .error .torn
  | _ => .ok (.text text)

/-- The parts of a name between points and pairs of underscores, in lower case. -/
def splitName (current : List Char) : List Char → List String
  | [] => [String.ofList current.reverse]
  | '_' :: '_' :: rest => String.ofList current.reverse :: splitName [] rest
  | '.' :: rest => String.ofList current.reverse :: splitName [] rest
  | c :: rest => splitName (c.toLower :: current) rest

/-- The key that a variable sets, part by part; other programs' variables set none. Blanks around the
name do not count, nor do those between the mark and the key. -/
def pathOf (name : String) : Option (List String) :=
  let cs := Text.trim name.toList
  if (cs.take mark.length).map Char.toLower = mark then
    let path := splitName [] (Text.trim (cs.drop mark.length))
    if path.contains "" then none else some path
  else none

/-- A value under a path of keys. -/
def nest : List String → Toml.Value → Toml.Value
  | [], v => v
  | key :: path, v => .table .inline [(key, nest path v)]

/-- Lay what a variable sets, if anything, over some pairs. -/
def overlayVariable (es : Toml.Entries) (var : String × String) : Except Misread Toml.Entries :=
  match pathOf var.1 with
  | none => .ok es
  | some path =>
    match valueOf var.2 with
    | .error e => .error e
    | .ok v =>
      match nest path v with
      | .table _ pairs => .ok (Toml.overlay es pairs)
      | _ => .ok es

/-- The pairs that the variables set, later variables over earlier ones. -/
def entries (vars : Variables) : Except Misread Toml.Entries := vars.foldlM overlayVariable []

end Environment

end BoothFloor
