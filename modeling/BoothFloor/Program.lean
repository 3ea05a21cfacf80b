import BoothFloor.CommandLine
import BoothFloor.Files
import BoothFloor.Settings.Layers
import BoothFloor.Simulation

/-!
# The program

A run of the program as a function: the words of its command line, the files it finds, its environment
and one random word give what it prints, how it ends and the files it leaves. The program has no
network of its own, so the command that runs a node ends once the node's address is known.
-/

namespace BoothFloor

/-- Why a command fails. -/
inductive CommandError where
  | settings (error : SettingsError)
  | address (error : AddressError)
  /-- There is no network on which the address could be used. -/
  | noNetwork (ip : IpAddress) (port : Nat)
  | simulation (error : SimulationError)
  /-- The arithmetic of a simulation has gone astray. -/
  | arithmetic (fault : Fault)
  /-- A setting is too large for a document. -/
  | tooLarge
  | file (fault : FileFault)
  deriving DecidableEq, Repr

/-- Why the program fails. -/
inductive Failure where
  | loading (error : LoadError)
  | command (error : CommandError)
  deriving DecidableEq, Repr

/-- What a command does to the world. -/
inductive Effect where
  | print (text : String)
  /-- Write some settings to the end of a path. -/
  | save (path : String) (settings : Settings)
  deriving DecidableEq, Repr

/-- How the program ends. -/
inductive Ending where
  | done
  | misuse (cause : CommandLine.Misuse)
  | failed (failure : Failure)
  deriving DecidableEq, Repr

namespace SettingsError

/-- The causes of a fault in the settings, the outermost one first. -/
def causes : SettingsError → List String
  | rules error => ["Pop-in core error: Configuration error: " ++ error.reason,
      "Configuration error: " ++ error.reason]
  | e => [e.message]

end SettingsError

namespace SimulationError

/-- The causes of a fault in the setup of a simulation, the outermost one first. -/
def causes : SimulationError → List String
  | node error => ["Pop-in core error: " ++ error.message, error.message]
  | e => ["Simulation error: " ++ e.reason]

end SimulationError

namespace CommandError

/-- What the link says for want of a network. -/
def noNetworkReason (ip : IpAddress) (port : Nat) : String :=
  "Failed to bind " ++ Address.socketText ip port ++
    ": Cannot assign requested address (os error 99)"

/-- What is wrong with a number that no document can hold. -/
def tooLargeReason : String := "out-of-range value for u64 type"

/-- The causes of a failure, the outermost one first. -/
def causes : CommandError → List String
  | settings error => error.causes
  | address error => ["Link initialization failed: " ++ error.reason]
  | noNetwork ip port => ["Link initialization failed: " ++ noNetworkReason ip port]
  | simulation error => error.causes
  | arithmetic fault => ["Arithmetic error: " ++ fault.reason]
  | tooLarge => ["TOML encoding error: " ++ tooLargeReason, tooLargeReason]
  | file fault => ["IO error: " ++ fault.reason, fault.reason]

end CommandError

namespace Failure

/-- What the program was doing. -/
def context : Failure → String
  | loading _ => "failed to load configuration"
  | command _ => "command failed"

def causes : Failure → List String
  | loading .unreadable => ["Configuration loading error: not a table of settings"]
  | loading .torn => ["Configuration loading error: a character of several bytes is cut"]
  | loading (.settings error) => error.causes
  | command error => error.causes

/-- A cause with something in front, and a margin before its further lines. -/
def causeBlock (front margin cause : String) : String :=
  front ++ String.intercalate ("\n" ++ margin) (cause.splitOn "\n")

/-- The lines of some causes; more than one are numbered. -/
def causeLines : List String → List String
  | [cause] => [causeBlock "    " "    " cause]
  | causes => causes.mapIdx fun i cause => causeBlock ("    " ++ toString i ++ ": ") "       " cause

/-- The report of a failure and its causes. -/
def report (f : Failure) : String :=
  "Error: " ++ f.context ++ "\n\nCaused by:\n" ++
    String.join ((causeLines f.causes).map (· ++ "\n"))

end Failure

namespace Ending

def exitCode : Ending → UInt32
  | done => 0
  | failed (.loading .torn) | failed (.command (.arithmetic _)) => 101
  | failed _ => 1
  | misuse _ => 2

/-- What is said about the ending where errors go. -/
def errorText : Ending → String
  | done => ""
  | failed failure => failure.report
  | misuse cause => "error: " ++ cause.reason ++ "\n\nFor more information, try '--help'.\n"

end Ending

namespace Program

/-- The file with settings that is read if no other one is named. -/
def defaultPath : String := "popin.toml"

/-- The path at which settings are looked for. -/
def settingsPath (i : Invocation) : String := i.settingsPath.getD defaultPath

/-- The settings for an invocation, with what was found at their path. A file that was named has to
exist; a folder in its place gives no settings. -/
def loadSettings (i : Invocation) (found : Option Entry) (vars : Environment.Variables) :
    Except LoadError Settings :=
  match i.settingsPath, found with
  | some path, none => .error (.settings (.missingFile path))
  | _, some (.file text) => Settings.load (some text) vars
  | _, _ => Settings.load none vars

/-- The floor to simulate: short times, if wanted, instead of the configured rules. -/
def setup (s : Settings) (users : UInt8) (seconds : UInt64) (seed : UInt64) (fast : Bool) :
    Setup where
  rules := if fast then { Rules.brisk with hosts := s.rules.hosts } else s.rules
  users := users
  duration := .ofParts seconds.toNat 0
  tick := .ofMillis s.runtime.tickIntervalMs.toNat
  seed := seed

/-- Run a simulation and print its report. -/
def simulate (setup : Setup) (json : Bool) : Except CommandError Effect :=
  match Simulation.ofSetup setup with
  | .error e => .error (.simulation e)
  | .ok simulation =>
    match simulation.run with
    | .error fault => .error (.arithmetic fault)
    | .ok report => .ok (.print (if json then report.jsonText ++ "\n" else report.text))

/-- Print the settings, with a heading if they are the default ones, or write them to a file. -/
def writeSettings (s : Settings) : Option String → Except CommandError Effect
  | some path => .ok (.save path s)
  | none =>
    match s.toToml? with
    | some text => .ok (.print (if s = {} then Settings.exampleText else text))
    | none => .error .tooLarge

/-- Find the address of a node to be run. -/
def runNode (s : Settings) (id : UInt8) : Except CommandError Effect :=
  match s.nodeId id with
  | .error e => .error (.settings e)
  | .ok id =>
    match s.link.address id with
    | .error e => .error (.address e)
    | .ok (ip, port) => .error (.noNetwork ip port)

/-- What a command does; `random` is the seed of a simulation that names none. -/
def execute (s : Settings) (random : UInt64) : Command → Except CommandError Effect
  | .node id _ _ => runNode s id
  | .simulate users seconds seed json fast =>
    simulate (setup s users seconds (seed.getD random) fast) json
  | .config output => writeSettings s output

/-- The path at which a run looks for settings, if it gets that far. -/
def pathFor (words : List String) : Option String :=
  match CommandLine.read words with
  | .ok invocation => some (settingsPath invocation)
  | .error _ => none

/-- What a run does, by the words of its command line, what was found at its path for settings, its
environment and a random word. -/
def plan (words : List String) (found : Option Entry) (vars : Environment.Variables)
    (random : UInt64) : Except Ending Effect :=
  match CommandLine.read words with
  | .error (.help page) => .ok (.print page)
  | .error .version => .ok (.print CommandLine.versionText)
  | .error (.misuse cause) => .error (.misuse cause)
  | .ok invocation =>
    match loadSettings invocation found vars with
    | .error e => .error (.failed (.loading e))
    | .ok settings =>
      match execute settings random invocation.command with
      | .error e => .error (.failed (.command e))
      | .ok effect => .ok effect

/-- What a run leaves behind. -/
structure Result where
  printed : String
  ending : Ending
  files : Files

/-- Write some settings to the end of a path. The folders on the way come before the text, which is
asked for only when it is to be written. -/
def save (files : Files) (path : String) (s : Settings) : Except CommandError Files :=
  match files.makeParents path, s.toToml? with
  | .error fault, _ => .error (.file fault)
  | .ok _, none => .error .tooLarge
  | .ok files, some text =>
    match files.write path text with
    | .error fault => .error (.file fault)
    | .ok files => .ok files

/-- Carry out an effect on some files. -/
def perform (files : Files) : Effect → Result
  | .print text => ⟨text, .done, files⟩
  | .save path settings =>
    match save files path settings with
    | .ok files => ⟨"", .done, files⟩
    | .error e => ⟨"", .failed (.command e), files⟩

/-- A run of the program in a directory of files. -/
def run (words : List String) (files : Files) (vars : Environment.Variables) (random : UInt64) :
    Result :=
  match plan words ((pathFor words).bind files.find) vars random with
  | .ok effect => perform files effect
  | .error ending => ⟨"", ending, files⟩

end Program

end BoothFloor
