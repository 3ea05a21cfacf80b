/-!
# Sheets of options

A command is described by a sheet: its options and the commands under it. A help page is the layout
of a sheet, so every option that can be read is on it.
-/

namespace BoothFloor.CommandLine

/-- What an option is given: nothing, a text, or a number between two bounds, whose sign is read only
if `signed`. -/
inductive ValueKind where
  | flag
  | text
  | number (signed : Bool) (least greatest : Int)
  deriving DecidableEq, Repr

namespace ValueKind

/-- A number of eight bits. -/
def byte : ValueKind := number true 0 255

/-- A number of eight bits with a sign. -/
def signedByte : ValueKind := number true (-128) 127

/-- A number of 64 bits. -/
def word : ValueKind := number false 0 (UInt64.size - 1)

end ValueKind

/-- An option: its names, what it is given, and what the help page says about it. -/
structure OptionSpec where
  long : String
  short : Option Char := none
  kind : ValueKind := .flag
  required : Bool := false
  /-- Whether its value may begin with a hyphen. -/
  hyphens : Bool := false
  help : String
  deriving DecidableEq, Repr

namespace OptionSpec

def takesValue (o : OptionSpec) : Bool := o.kind != .flag

/-- The name that stands for the value: that of the option in capitals. -/
def valueName (o : OptionSpec) : String :=
  String.ofList (o.long.toList.map fun c => if c = '-' then '_' else c.toUpper)

/-- The long name, with the value's name behind it. -/
def longForm (o : OptionSpec) : String :=
  "--" ++ o.long ++ (if o.takesValue then " <" ++ o.valueName ++ ">" else "")

/-- Both names, the short one's place left blank if there is none. -/
def synopsis (o : OptionSpec) : String :=
  (match o.short with
    | some c => "-" ++ String.ofList [c] ++ ", "
    | none => "    ") ++ o.longForm

end OptionSpec

/-- A command: how it is called, what it does, its options, and the commands under it with what they
do. -/
structure Sheet where
  call : String
  about : String
  options : List OptionSpec
  commands : List (String × String) := []
  deriving DecidableEq, Repr

/-- The option that every sheet has. -/
def helpOption : OptionSpec := { long := "help", short := some 'h', help := "Print help" }

namespace Sheet

def long? (s : Sheet) (name : List Char) : Option OptionSpec :=
  s.options.find? (·.long.toList == name)

def short? (s : Sheet) (c : Char) : Option OptionSpec := s.options.find? (·.short == some c)

/-- Text in two columns, the second one two blanks behind the widest entry of the first. -/
def columns (rows : List (String × String)) : String :=
  let width := (rows.map (·.1.length)).foldl max 0
  String.join <| rows.map fun (left, right) =>
    let gap := String.ofList (List.replicate (width - left.length + 2) ' ')
    "  " ++ left ++ gap ++ right ++ "\n"

/-- How the command is called, options that must be given last. -/
def usage (s : Sheet) : String :=
  let must := (s.options.filter (·.required)).map fun o => " " ++ o.longForm
  s.call ++ " [OPTIONS]" ++ String.join must ++ (if s.commands.isEmpty then "" else " <COMMAND>")

/-- The help page. -/
def helpText (s : Sheet) : String :=
  s.about ++ "\n\nUsage: " ++ s.usage ++ "\n" ++
    (if s.commands.isEmpty then "" else "\nCommands:\n" ++ columns s.commands) ++
      "\nOptions:\n" ++ columns (s.options.map fun o => (o.synopsis, o.help))

end Sheet

end BoothFloor.CommandLine
