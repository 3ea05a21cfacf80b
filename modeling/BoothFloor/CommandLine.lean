import BoothFloor.CommandLine.Reading

/-!
# The command line

Options of the program, then one of its commands with options of its own.
-/

namespace BoothFloor

/-- What the program is to do. -/
inductive Command where
  /-- Run one node. -/
  | node (id : UInt8) (txRssi : Option Int8) (console : Bool)
  /-- Simulate a floor; without a seed the strengths are random. -/
  | simulate (users : UInt8) (seconds : UInt64) (seed : Option UInt64) (json fast : Bool)
  /-- Print the settings or write them to a file. -/
  | config (output : Option String)
  deriving DecidableEq, Repr

/-- What a command line says. -/
structure Invocation where
  verbose : Bool
  /-- The file to read settings from. -/
  settingsPath : Option String
  command : Command
  deriving DecidableEq, Repr

namespace CommandLine

def programName : String := "popin"

/-- The line that tells the version. -/
def versionText : String := "popin-cli 0.1.0\n"

def nodeSheet : Sheet where
  call := programName ++ " node"
  about := "Run one node on the UDP loopback link"
  options :=
    [{ long := "id", short := some 'i', kind := .byte, required := true,
       help := "Node id; ids in the admin range run a booth" },
     { long := "tx-rssi", kind := .signedByte, hyphens := true,
       help := "RSSI stamped on outgoing frames (overrides link.tx_rssi)" },
     { long := "no-console", help := "Do not read commands from stdin" },
     helpOption]

def defaultUsers : UInt8 := 10

def defaultSeconds : UInt64 := 120

def simulateSheet : Sheet where
  call := programName ++ " simulate"
  about := "Simulate booths and users in one process"
  options :=
    [{ long := "users", short := some 'u', kind := .byte,
       help := "Number of users [default: " ++ toString defaultUsers ++ "]" },
     { long := "seconds", short := some 's', kind := .word,
       help := "Simulated time in seconds [default: " ++ toString defaultSeconds ++ "]" },
     { long := "seed", kind := .word,
       help := "Seed for the signal strengths (random when omitted)" },
     { long := "json", help := "Print the report as JSON" },
     { long := "fast", help := "Use short protocol timers instead of the configured ones" },
     helpOption]

def configSheet : Sheet where
  call := programName ++ " config"
  about := "Print an example configuration, or write it to a file"
  options :=
    [{ long := "output", short := some 'o', kind := .text,
       help := "Write the configuration to this path" },
     helpOption]

/-- What the command for help does. -/
def helpAbout : String := "Print this message or the help of the given subcommand(s)"

def programSheet : Sheet where
  call := programName
  about := "Node runner, UDP loopback link and simulator for the Pop-in booth protocol"
  options :=
    [{ long := "verbose", short := some 'v', help := "Enable verbose logging" },
     { long := "config", short := some 'c', kind := .text,
       help := "Configuration file path (defaults to ./popin.toml when present)" },
     helpOption,
     { long := "version", short := some 'V', help := "Print version" }]
  commands :=
    [("node", nodeSheet.about), ("simulate", simulateSheet.about), ("config", configSheet.about),
      ("help", helpAbout)]

/-- The help page of the command for help, which has no options but names of commands. -/
def helpHelpText : String :=
  helpAbout ++ "\n\nUsage: " ++ programName ++ " help [COMMAND]...\n\nArguments:\n" ++
    Sheet.columns [("[COMMAND]...", "Print help for the subcommand(s)")]

def nodeCommand (g : Given) : Command :=
  .node (UInt8.ofNat ((g.number? "id").getD 0).toNat) ((g.number? "tx-rssi").map Int8.ofInt)
    (!g.has "no-console")

def simulateCommand (g : Given) : Command :=
  .simulate (((g.number? "users").map fun n => UInt8.ofNat n.toNat).getD defaultUsers)
    (((g.number? "seconds").map fun n => UInt64.ofNat n.toNat).getD defaultSeconds)
    ((g.number? "seed").map fun n => UInt64.ofNat n.toNat) (g.has "json") (g.has "fast")

def configCommand (g : Given) : Command := .config (g.text? "output")

/-- Read a command's own options. -/
def readCommand (name : String) (words : List String) : Except Stop Command :=
  match name with
  | "node" => (readSheet nodeSheet words).map nodeCommand
  | "simulate" => (readSheet simulateSheet words).map simulateCommand
  | "config" => (readSheet configSheet words).map configCommand
  | name => .error (.misuse (.unknownCommand name))

/-- The help page that some names of commands ask for. -/
def helpFor (words : List String) : Stop :=
  match words with
  | [] => .help programSheet.helpText
  | ["node"] => .help nodeSheet.helpText
  | ["simulate"] => .help simulateSheet.helpText
  | ["config"] => .help configSheet.helpText
  | ["help"] => .help helpHelpText
  | first :: rest =>
    if (programSheet.commands.lookup first).isSome then
      .misuse (.unknownCommand (rest.head?.getD first))
    else .misuse (.unknownCommand first)

/-- Read the words behind the program's name. What the command's own words ask for comes before a fault
of an option held back in front of it. -/
def read (words : List String) : Except Stop Invocation :=
  match readLevel programSheet [] none none words with
  | .error e => .error e
  | .ok level =>
    match level.command with
    | none => .error (.misuse .missingCommand)
    | some ("help", rest) => .error (helpFor rest)
    | some (name, rest) =>
      match readCommand name rest, level.settled with
      | .error e, _ => .error e
      | _, .error e => .error e
      | .ok command, .ok given =>
        .ok
          { verbose := given.has "verbose"
            settingsPath := given.text? "config"
            command := command }

end CommandLine

end BoothFloor
