import BoothFloor.Toml.Number

/-!
# Quoted text in configuration files

Four ways to quote a text: between single or double quotes on one line, or between three of them
over several. Only double quotes know escapes. Writing chooses the form that needs no escapes where
there is one.
-/

namespace BoothFloor.Toml

/-- Control characters other than a tab may not stand in a document as they are. -/
def isPlain (c : Char) : Bool := c == '\t' || (0x20 ≤ c.toNat && c.toNat != 0x7F)

/-- The character with a number that is one. -/
def charOf? (n : Nat) : Option Char :=
  if n < 0xD800 ∨ (0xDFFF < n ∧ n < 0x110000) then some (Char.ofNat n) else none

/-- The character with some hexadecimal digits. -/
def hexChar? (cs : List Char) : Option Char :=
  if cs.all fun c => (hexDigit? c).isSome then charOf? (digitsValue 16 cs) else none

/-- The character that a letter behind a backslash stands for. -/
def escape? (c : Char) : Option Char :=
  match c with
  | 'b' => some '\x08'
  | 't' => some '\t'
  | 'n' => some '\n'
  | 'f' => some '\x0c'
  | 'r' => some '\r'
  | '"' => some '"'
  | '\\' => some '\\'
  | _ => none

/-- Put a character in front of what was read behind it. -/
def readThen (c : Option Char) (rest : Option (List Char × List Char)) :
    Option (List Char × List Char) := do
  let c ← c
  let (text, rest) ← rest
  return (c :: text, rest)

/-- The text up to the closing double quote on the same line, and what follows it. -/
def readBasic : List Char → Option (List Char × List Char)
  | '"' :: rest => some ([], rest)
  | '\\' :: 'u' :: a :: b :: c :: d :: rest => readThen (hexChar? [a, b, c, d]) (readBasic rest)
  | '\\' :: 'U' :: a :: b :: c :: d :: e :: f :: g :: h :: rest =>
    readThen (hexChar? [a, b, c, d, e, f, g, h]) (readBasic rest)
  | '\\' :: c :: rest => readThen (escape? c) (readBasic rest)
  | c :: rest => readThen (if isPlain c && c != '\\' then some c else none) (readBasic rest)
  | [] => none

/-- The text up to the closing single quote on the same line, and what follows it. -/
def readLiteral : List Char → Option (List Char × List Char)
  | '\'' :: rest => some ([], rest)
  | c :: rest => readThen (if isPlain c then some c else none) (readLiteral rest)
  | [] => none

/-- Drop blanks and line ends. -/
def dropSpace : List Char → List Char
  | '\r' :: '\n' :: rest => dropSpace rest
  | c :: rest => if c == ' ' || c == '\t' || c == '\n' then dropSpace rest else c :: rest
  | [] => []

theorem length_dropSpace_le (cs : List Char) : (dropSpace cs).length ≤ cs.length := by
  fun_induction dropSpace cs with
  | case1 rest ih => simp only [List.length_cons]; omega
  | case2 c rest _ _ ih => simp only [List.length_cons]; omega
  | case3 => exact Nat.le_refl _
  | case4 => exact Nat.le_refl _

/-- What follows a backslash at the end of a line: the next character that is no space. -/
def dropLineEnd? (cs : List Char) : Option (List Char) :=
  match cs.dropWhile fun c => c == ' ' || c == '\t' with
  | '\n' :: rest => some (dropSpace rest)
  | '\r' :: '\n' :: rest => some (dropSpace rest)
  | _ => none

theorem length_dropLineEnd?_le {cs rest : List Char} (h : dropLineEnd? cs = some rest) :
    rest.length ≤ cs.length := by
  have hw : (cs.dropWhile fun c => c == ' ' || c == '\t').length ≤ cs.length :=
    (List.dropWhile_suffix _).length_le
  unfold dropLineEnd? at h
  split at h
  · next r e =>
    cases h
    have := length_dropSpace_le r
    rw [e] at hw
    simp only [List.length_cons] at hw
    omega
  · next r e =>
    cases h
    have := length_dropSpace_le r
    rw [e] at hw
    simp only [List.length_cons] at hw
    omega
  · cases h

/-- The text up to three double quotes, and what follows them. One or two more quotes belong to the
text, a line end behind a backslash does not. -/
def readLongBasic : List Char → Option (List Char × List Char)
  | '"' :: '"' :: '"' :: '"' :: '"' :: rest => some (['"', '"'], rest)
  | '"' :: '"' :: '"' :: '"' :: rest => some (['"'], rest)
  | '"' :: '"' :: '"' :: rest => some ([], rest)
  | '\\' :: 'u' :: a :: b :: c :: d :: rest =>
    readThen (hexChar? [a, b, c, d]) (readLongBasic rest)
  | '\\' :: 'U' :: a :: b :: c :: d :: e :: f :: g :: h :: rest =>
    readThen (hexChar? [a, b, c, d, e, f, g, h]) (readLongBasic rest)
  | '\\' :: rest =>
    match _h : dropLineEnd? rest with
    | some later => readLongBasic later
    | none =>
      match rest with
      | c :: rest => readThen (escape? c) (readLongBasic rest)
      | [] => none
  | '\r' :: '\n' :: rest => readThen (some '\n') (readLongBasic rest)
  | c :: rest => readThen (if isPlain c || c == '\n' then some c else none) (readLongBasic rest)
  | [] => none
termination_by cs => cs.length
decreasing_by
  all_goals simp only [List.length_cons]
  all_goals first
    | omega
    | exact Nat.lt_succ_of_le (length_dropLineEnd?_le _h)

/-- The text up to three single quotes, and what follows them. -/
def readLongLiteral : List Char → Option (List Char × List Char)
  | '\'' :: '\'' :: '\'' :: '\'' :: '\'' :: rest => some (['\'', '\''], rest)
  | '\'' :: '\'' :: '\'' :: '\'' :: rest => some (['\''], rest)
  | '\'' :: '\'' :: '\'' :: rest => some ([], rest)
  | '\r' :: '\n' :: rest => readThen (some '\n') (readLongLiteral rest)
  | c :: rest => readThen (if isPlain c || c == '\n' then some c else none) (readLongLiteral rest)
  | [] => none

/-- A line end directly behind an opening mark does not belong to the text. -/
def dropFirstLineEnd : List Char → List Char
  | '\n' :: rest => rest
  | '\r' :: '\n' :: rest => rest
  | cs => cs

/-- A quoted text in any of the four forms, and what follows it. -/
def readQuoted (cs : List Char) : Option (List Char × List Char) :=
  match cs with
  | '"' :: '"' :: '"' :: rest => readLongBasic (dropFirstLineEnd rest)
  | '"' :: rest => readBasic rest
  | '\'' :: '\'' :: '\'' :: rest => readLongLiteral (dropFirstLineEnd rest)
  | '\'' :: rest => readLiteral rest
  | _ => none

/-- A digit of a hexadecimal number in upper case. -/
def upperHex (n : Nat) : Char := Char.ofNat (if n < 10 then 48 + n else 55 + n)

/-- The four forms of a quoted text. -/
inductive QuoteForm where
  | basic
  | literal
  | longBasic
  | longLiteral
  deriving DecidableEq, Repr

/-- A character that only an escape can stand for. -/
def isControl (c : Char) : Bool := c != '\n' && !isPlain c

/-- The length of the longest row of a character, `run` of which stand before the text. -/
def longestRun (q : Char) (run : Nat) : List Char → Nat
  | [] => run
  | c :: cs => if c = q then longestRun q (run + 1) cs else max run (longestRun q 0 cs)

/-- The first form in which a text needs no escapes, the short ones before the long ones and double
quotes before single ones; if there is none, double quotes with escapes. -/
def QuoteForm.ofText (cs : List Char) : QuoteForm :=
  let lines := cs.contains '\n'
  let doubles := longestRun '"' 0 cs
  let singles := longestRun '\'' 0 cs
  if cs.any isControl then (if lines then longBasic else basic)
  else if !cs.contains '\\' && doubles = 0 && !lines then basic
  else if singles = 0 && !lines then literal
  else if !cs.contains '\\' && doubles ≤ 2 then longBasic
  else if singles ≤ 2 then longLiteral
  else if lines then longBasic
  else basic

/-- A character between double quotes that is no quote itself; line ends stay as they are if the text
may have several lines. -/
def writeChar (lines : Bool) (c : Char) : List Char :=
  if c = '\x08' then ['\\', 'b']
  else if c = '\t' then ['\\', 't']
  else if c = '\n' then (if lines then ['\n'] else ['\\', 'n'])
  else if c = '\x0c' then ['\\', 'f']
  else if c = '\r' then ['\\', 'r']
  else if c = '\\' then ['\\', '\\']
  else if c.toNat < 0x20 || c.toNat = 0x7F then
    ['\\', 'u', '0', '0', upperHex (c.toNat / 16), upperHex (c.toNat % 16)]
  else [c]

/-- A text between double quotes. In a text that may have several lines up to two quotes in a row stay
as they are; `run` of them stand before the text. -/
def writeBasic (lines : Bool) (run : Nat) : List Char → List Char
  | [] => []
  | c :: cs =>
    if c = '"' then
      if lines && run < 2 then '"' :: writeBasic lines (run + 1) cs
      else '\\' :: '"' :: writeBasic lines 0 cs
    else writeChar lines c ++ writeBasic lines 0 cs

/-- A text in quotes. A text of several lines begins on a line of its own. -/
def quote (text : String) : String :=
  let cs := text.toList
  let first := if cs.contains '\n' then "\n" else ""
  match QuoteForm.ofText cs with
  | .basic => "\"" ++ String.ofList (writeBasic false 0 cs) ++ "\""
  | .literal => "'" ++ text ++ "'"
  | .longBasic => "\"\"\"" ++ first ++ String.ofList (writeBasic true 0 cs) ++ "\"\"\""
  | .longLiteral => "'''" ++ first ++ text ++ "'''"

end BoothFloor.Toml
