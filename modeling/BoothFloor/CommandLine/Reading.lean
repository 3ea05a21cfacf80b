import BoothFloor.CommandLine.Sheet

/-!
# Reading the words of a command line

The words of a command line against a sheet: options in any order up to the first word that names a
command. A value follows its option as the next word, or stands behind an equals sign, or directly
behind a short name. Reading stops at the first word that asks for help or that does not fit.
-/

namespace BoothFloor.CommandLine

/-- Why the words do not fit. -/
inductive Misuse where
  | unexpected (word : String)
  | unknownCommand (word : String)
  | missingCommand
  | missingValue (option : String)
  | needlessValue (option : String)
  | invalidValue (option value : String)
  | repeated (option : String)
  | missingOption (option : String)
  deriving DecidableEq, Repr

def Misuse.reason : Misuse → String
  | unexpected word => "unexpected argument '" ++ word ++ "' found"
  | unknownCommand word => "unrecognized subcommand '" ++ word ++ "'"
  | missingCommand => "a subcommand is required but one was not provided"
  | missingValue option => "a value is required for '--" ++ option ++ "' but none was supplied"
  | needlessValue option => "unexpected value for '--" ++ option ++ "' found; no more were expected"
  | invalidValue option value => "invalid value '" ++ value ++ "' for '--" ++ option ++ "'"
  | repeated option => "the argument '--" ++ option ++ "' cannot be used multiple times"
  | missingOption option => "the required argument '--" ++ option ++ "' was not provided"

/-- Why reading stops before anything is run. -/
inductive Stop where
  | help (page : String)
  | version
  | misuse (cause : Misuse)
  deriving DecidableEq, Repr

/-- What an option was given. -/
inductive Argument where
  | flag
  | text (s : String)
  | number (n : Int)
  deriving DecidableEq, Repr

/-- The options that were given, by long name. -/
abbrev Given := List (String × Argument)

namespace Given

def has (g : Given) (name : String) : Bool := (g.lookup name).isSome

def text? (g : Given) (name : String) : Option String :=
  match g.lookup name with
  | some (.text s) => some s
  | _ => none

def number? (g : Given) (name : String) : Option Int :=
  match g.lookup name with
  | some (.number n) => some n
  | _ => none

end Given

def decimal (digits : List Char) : Nat :=
  digits.foldl (fun n c => n * 10 + (c.toNat - 48)) 0

/-- A whole number in decimal digits, perhaps with a sign in front. A minus is read only if `signed`. -/
def readNumber (signed : Bool) (cs : List Char) : Option Int :=
  let unsigned (ds : List Char) : Option Nat :=
    if !ds.isEmpty && ds.all fun c => '0' ≤ c && c ≤ '9' then some (decimal ds) else none
  match cs with
  | '+' :: ds => (unsigned ds).map Int.ofNat
  | '-' :: ds => if signed then (unsigned ds).map fun n => -(n : Int) else none
  | ds => (unsigned ds).map Int.ofNat

namespace ValueKind

/-- The value that a text stands for. -/
def read (k : ValueKind) (s : String) : Option Argument :=
  match k with
  | flag => none
  | text => some (.text s)
  | number signed least greatest =>
    match readNumber signed s.toList with
    | some n => if least ≤ n ∧ n ≤ greatest then some (.number n) else none
    | none => none

end ValueKind

/-- Note what an option was given; an option is given once. -/
def give (g : Given) (o : OptionSpec) (a : Argument) : Except Stop Given :=
  if g.has o.long then .error (.misuse (.repeated o.long)) else .ok (g ++ [(o.long, a)])

/-- Note an option with the text of its value. -/
def giveText (g : Given) (o : OptionSpec) (s : String) : Except Stop Given :=
  match o.kind.read s with
  | some a => give g o a
  | none => .error (.misuse (.invalidValue o.long s))

/-- Note an option without a value; two of them stop the reading. -/
def giveFlag (s : Sheet) (g : Given) (o : OptionSpec) : Except Stop Given :=
  if o.long = "help" then .error (.help s.helpText)
  else if o.long = "version" then .error .version
  else give g o .flag

/-- The form of a word. -/
inductive Word where
  /-- Two hyphens, behind which no word is an option. -/
  | escape
  | long (name : List Char) (value : Option String)
  | cluster (names : List Char)
  | plain
  deriving DecidableEq, Repr

namespace Word

/-- A long name and the text behind the first equals sign. -/
def ofLong (cs : List Char) : Word :=
  let name := cs.takeWhile (· ≠ '=')
  match cs.drop name.length with
  | [] => long name none
  | _ :: value => long name (some (String.ofList value))

def ofString (w : String) : Word :=
  match w.toList with
  | ['-', '-'] => escape
  | '-' :: '-' :: cs => ofLong cs
  | ['-'] => plain
  | '-' :: cs => cluster cs
  | _ => plain

end Word

/-- Options read so far, and the last one of them if its value is to come. -/
abbrev Progress := Given × Option OptionSpec

/-- Read some short names behind one hyphen. The first one that takes a value takes all that is left,
without an equals sign in front. -/
def readCluster (s : Sheet) (g : Given) : List Char → Except Stop Progress
  | [] => .ok (g, none)
  | c :: cs =>
    match s.short? c with
    | none => .error (.misuse (.unexpected ("-" ++ String.ofList [c])))
    | some o =>
      if o.takesValue then
        match cs with
        | [] => .ok (g, some o)
        | '=' :: value => (giveText g o (String.ofList value)).map (·, none)
        | value => (giveText g o (String.ofList value)).map (·, none)
      else
        match giveFlag s g o with
        | .ok g => readCluster s g cs
        | .error e => .error e

/-- Read a long name and the value behind its equals sign. -/
def readLong (s : Sheet) (g : Given) (name : List Char) (value : Option String) :
    Except Stop Progress :=
  match s.long? name, value with
  | none, _ => .error (.misuse (.unexpected ("--" ++ String.ofList name)))
  | some o, none => if o.takesValue then .ok (g, some o) else (giveFlag s g o).map (·, none)
  | some o, some v =>
    if o.takesValue then (giveText g o v).map (·, none) else .error (.misuse (.needlessValue o.long))

/-- An option and the word behind it that is its value. -/
abbrev Held := Option (OptionSpec × String)

/-- Note an option that was held back with its value. -/
def noteHeld (g : Given) : Held → Except Stop Given
  | none => .ok g
  | some (o, word) => giveText g o word

/-- Options read, one of them held back, and the command at which reading ended with the words behind
it. -/
structure Level where
  given : Given
  held : Held
  command : Option (String × List String)
  deriving Repr

/-- All options of a level. -/
def Level.settled (l : Level) : Except Stop Given := noteHeld l.given l.held

/-- Read options up to the first word that names a command. No word may stand alone that is neither an
option nor a value nor a command. An option whose value is a word of its own is held back until the next
option or the end, and so past the words of a command. -/
def readLevel (s : Sheet) (g : Given) (held : Held) :
    Option OptionSpec → List String → Except Stop Level
  | none, [] => .ok ⟨g, held, none⟩
  | some o, [] => .error (.misuse (.missingValue o.long))
  | some o, w :: ws =>
    if o.hyphens || Word.ofString w = .plain then readLevel s g (some (o, w)) none ws
    else .error (.misuse (.missingValue o.long))
  | none, w :: ws =>
    if (s.commands.lookup w).isSome then .ok ⟨g, held, some (w, ws)⟩
    else
      match Word.ofString w, noteHeld g held with
      | .escape, _ =>
        match ws with
        | [] => .ok ⟨g, held, none⟩
        | next :: _ => .error (.misuse (.unexpected next))
      | .plain, _ =>
        .error (.misuse (if s.commands.isEmpty then .unexpected w else .unknownCommand w))
      | _, .error e => .error e
      | .long name value, .ok g =>
        match readLong s g name value with
        | .ok (g, awaiting) => readLevel s g none awaiting ws
        | .error e => .error e
      | .cluster names, .ok g =>
        match readCluster s g names with
        | .ok (g, awaiting) => readLevel s g none awaiting ws
        | .error e => .error e

/-- Read a sheet without commands, with the options that must be given. -/
def readSheet (s : Sheet) (words : List String) : Except Stop Given :=
  match (readLevel s [] none none words).bind Level.settled with
  | .error e => .error e
  | .ok given =>
    match s.options.find? fun o => o.required && !given.has o.long with
    | some o => .error (.misuse (.missingOption o.long))
    | none => .ok given

end BoothFloor.CommandLine
