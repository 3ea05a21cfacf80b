import BoothFloor.Toml.Quoted

/-!
# Configuration files

A document is a run of statements, one to a line: a table's header, or a key and its value. Reading
gives the table that the statements build up, or nothing if the text is no document.
-/

namespace BoothFloor.Toml

def isBlank (c : Char) : Bool := c == ' ' || c == '\t'

def dropBlanks (cs : List Char) : List Char := cs.dropWhile isBlank

/-- Drop a comment up to the end of its line. -/
def dropComment (cs : List Char) : List Char :=
  match cs with
  | '#' :: rest => rest.dropWhile isPlain
  | _ => cs

/-- What follows the rest of a line that holds nothing but blanks and a comment. -/
def endLine (cs : List Char) : Option (List Char) :=
  match dropComment (dropBlanks cs) with
  | [] => some []
  | '\n' :: rest => some rest
  | '\r' :: '\n' :: rest => some rest
  | _ => none

/-- Drop blanks, comments and line ends. -/
def dropVoid : Bool → List Char → List Char
  | _, [] => []
  | _, '\n' :: rest => dropVoid false rest
  | _, '\r' :: '\n' :: rest => dropVoid false rest
  | true, c :: rest => if isPlain c then dropVoid true rest else c :: rest
  | false, c :: rest =>
    if isBlank c then dropVoid false rest else if c == '#' then dropVoid true rest else c :: rest

def isBareKeyChar (c : Char) : Bool := c.isAlphanum || c == '_' || c == '-'

/-- One part of a key: bare, or quoted on one line. -/
def readKey (cs : List Char) : Option (String × List Char) :=
  match cs with
  | '"' :: rest => (readBasic rest).map fun (key, rest) => (String.ofList key, rest)
  | '\'' :: rest => (readLiteral rest).map fun (key, rest) => (String.ofList key, rest)
  | _ =>
    let key := cs.takeWhile isBareKeyChar
    if key.isEmpty then none else some (String.ofList key, cs.drop key.length)

/-- The greatest number of parts of a key, and of values one within another. -/
def maxDepth : Nat := 79

/-- A key of at most so many parts: all but its last part, and that one. -/
def readPath : Nat → List Char → Option ((List String × String) × List Char)
  | 0, _ => none
  | parts + 1, cs => do
    let (key, rest) ← readKey (dropBlanks cs)
    match dropBlanks rest with
    | '.' :: rest => do
      let ((path, last), rest) ← readPath parts rest
      return ((key :: path, last), rest)
    | rest => return (([], key), rest)

/-- Characters of numbers, dates, times and names. -/
def isScalarChar (c : Char) : Bool :=
  c.isAlphanum || c == '_' || c == '-' || c == '+' || c == '.' || c == ':'

/-- A value that is neither quoted nor in brackets. A blank may stand between a day and a time. -/
def readScalar (cs : List Char) : Option (Value × List Char) :=
  let run := cs.takeWhile isScalarChar
  let rest := cs.drop run.length
  match isDate run, rest with
  | true, ' ' :: c :: later =>
    if isDigit c then
      let time := (c :: later).takeWhile isScalarChar
      (scalar? (run ++ ' ' :: time)).map fun v => (v, (c :: later).drop time.length)
    else (scalar? run).map fun v => (v, rest)
  | _, _ => (scalar? run).map fun v => (v, rest)

/-- The elements of an array up to its closing bracket; a comma may follow the last one. -/
def readItems (item : List Char → Option (Value × List Char)) :
    Nat → List Char → Option (List Value × List Char)
  | 0, _ => none
  | fuel + 1, cs =>
    match dropVoid false cs with
    | ']' :: rest => some ([], rest)
    | cs => do
      let (v, rest) ← item cs
      match dropVoid false rest with
      | ',' :: rest => do
        let (vs, rest) ← readItems item fuel rest
        return (v :: vs, rest)
      | ']' :: rest => return ([v], rest)
      | _ => none

/-- The pairs of an inline table up to its closing brace; no comma may follow the last one. -/
def readPairs (item : List Char → Option (Value × List Char)) :
    Nat → Entries → List Char → Option (Entries × List Char)
  | 0, _, _ => none
  | fuel + 1, es, cs => do
    let ((path, key), rest) ← readPath maxDepth cs
    match rest with
    | '=' :: rest => do
      let (v, rest) ← item (dropBlanks rest)
      let es ← es.define path key v
      match dropBlanks rest with
      | ',' :: rest => readPairs item fuel es rest
      | '\x7d' :: rest => return (es, rest)
      | _ => none
    | _ => none

/-- A value in which at most `depth` others lie one within another. -/
def readValue : Nat → List Char → Option (Value × List Char)
  | depth, '[' :: rest =>
    match depth with
    | 0 => none
    | depth + 1 => do
      let (items, rest) ← readItems (readValue depth) (rest.length + 1) rest
      return (.array false items, rest)
  | depth, '\x7b' :: rest =>
    match depth with
    | 0 => none
    | depth + 1 =>
      match dropBlanks rest with
      | '\x7d' :: rest => some (.table .inline [], rest)
      | cs => do
        let (es, rest) ← readPairs (readValue depth) (cs.length + 1) [] cs
        return (.table .inline es, rest)
  | _, cs =>
    match readQuoted cs with
    | some (text, rest) => some (.text (String.ofList text), rest)
    | none => readScalar cs

/-- The tables built so far and the path of the header that is open. -/
structure Draft where
  entries : Entries := []
  header : List String := []

/-- One statement and the end of its line. -/
def readStatement (d : Draft) (cs : List Char) : Option (Draft × List Char) :=
  match cs with
  | '[' :: '[' :: rest => do
    let ((path, key), rest) ← readPath maxDepth rest
    match rest with
    | ']' :: ']' :: rest => do
      let entries ← d.entries.openElement path key
      return (⟨entries, path ++ [key]⟩, ← endLine rest)
    | _ => none
  | '[' :: rest => do
    let ((path, key), rest) ← readPath maxDepth rest
    match rest with
    | ']' :: rest => do
      let entries ← d.entries.openTable path key
      return (⟨entries, path ++ [key]⟩, ← endLine rest)
    | _ => none
  | _ => do
    let ((path, key), rest) ← readPath maxDepth cs
    match rest with
    | '=' :: rest => do
      let (v, rest) ← readValue maxDepth (dropBlanks rest)
      let entries ← d.entries.defineUnder d.header path key v
      return (⟨entries, d.header⟩, ← endLine rest)
    | _ => none

/-- The statements of a document; lines without one are passed over. -/
def readStatements : Nat → Draft → List Char → Option Entries
  | 0, _, _ => none
  | fuel + 1, d, cs =>
    match dropBlanks cs with
    | [] => some d.entries
    | cs =>
      match endLine cs with
      | some rest => readStatements fuel d rest
      | none => do
        let (d, rest) ← readStatement d cs
        readStatements fuel d rest

/-- The table that a document stands for. A byte order mark may come first. -/
def parse (text : String) : Option Entries :=
  let cs :=
    match text.toList with
    | '\ufeff' :: rest => rest
    | cs => cs
  readStatements (cs.length + 1) {} cs

end BoothFloor.Toml
