import BoothFloor.Inbox
import BoothFloor.Text.Blank

/-!
# The console

One line is one command: a letter and, for some letters, a text. Which letters may be used depends
on the role of the node.
-/

namespace BoothFloor

/-- Why a line is no command. -/
inductive ConsoleError where
  | unknownCommand (command : String)
  | needsMessage (command : String)
  | hostsOnly (command : String)
  | usersOnly (command : String)
  deriving DecidableEq, Repr

def ConsoleError.reason : ConsoleError → String
  | unknownCommand command => "unknown command '" ++ command ++ "'"
  | needsMessage command => "'" ++ command ++ "' needs a message"
  | hostsOnly command => "'" ++ command ++ "' is only available on booth admins"
  | usersOnly command => "'" ++ command ++ "' is only available on users"

namespace Intent

/-- Intents that only a booth host may have. -/
def hostsOnly : Intent → Bool
  | announce _ | toggleBroadcast => true
  | _ => false

/-- Intents that only a visitor may have. -/
def usersOnly : Intent → Bool
  | affirm | decline | exit | leaveQueue => true
  | _ => false

/-- Whether a node of some role may have an intent. -/
def allowedFor (role : Role) (i : Intent) : Bool :=
  match role with
  | .admin => !i.usersOnly
  | .user => !i.hostsOnly

/-- The intent that a command and the text behind it stand for. -/
def ofCommand (command text : List Char) : Except ConsoleError Intent :=
  let spoken (make : String → Intent) : Except ConsoleError Intent :=
    if text.isEmpty then .error (.needsMessage (String.ofList command))
    else .ok (make (String.ofList text))
  match command with
  | ['y'] => .ok .affirm
  | ['n'] => .ok .decline
  | ['e'] => .ok .exit
  | ['l'] => .ok .leaveQueue
  | ['c'] => spoken .chat
  | ['a'] => spoken .announce
  | ['b'] => .ok .toggleBroadcast
  | ['s'] => .ok .status
  | _ => .error (.unknownCommand (String.ofList command))

/-- Refuse an intent that the role may not have. -/
def gate (role : Role) (command : List Char) (i : Intent) : Except ConsoleError Intent :=
  if i.allowedFor role then .ok i
  else
    match role with
    | .admin => .error (.usersOnly (String.ofList command))
    | .user => .error (.hostsOnly (String.ofList command))

/-- The intent that a line stands for; a blank line stands for none. -/
def parseLine (role : Role) (line : List Char) : Except ConsoleError (Option Intent) :=
  let line := Text.trim line
  if line.isEmpty then .ok none
  else
    let command := line.takeWhile (!Text.isBlank ·)
    let text := Text.trim (line.dropWhile (!Text.isBlank ·))
    match ofCommand command text with
    | .error e => .error e
    | .ok i => (gate role command i).map some

def parse (role : Role) (line : String) : Except ConsoleError (Option Intent) :=
  parseLine role line.toList

end Intent

end BoothFloor
