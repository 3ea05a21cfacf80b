import BoothFloor.Notice

/-!
# Notices in words

The one-line text of every notice.
-/

namespace BoothFloor

/-- Numbers in brackets, with commas between them. -/
def listText (ids : List NodeId) : String :=
  "[" ++ String.intercalate ", " (ids.map NodeId.text) ++ "]"

/-- The booth's id, or a dash. -/
def boothText : Option NodeId → String
  | some id => id.text
  | none => "-"

def boolText (b : Bool) : String := if b then "true" else "false"

/-- How full a booth is. -/
def occupancyText (current capacity waiting : UInt8) : String :=
  "(" ++ toString current ++ "/" ++ toString capacity ++ " in use, " ++ toString waiting ++
    " waiting)"

namespace EndReason

def text : EndReason → String
  | exited => "exited"
  | timedOut => "timed out"
  | forcedExpiry => "expired without alert"

end EndReason

def RetryStage.text : RetryStage → String
  | connect => "Connect"
  | register => "Register"

namespace Snapshot

def offerText : Option NodeId → String
  | some id => "Some(" ++ id.text ++ ")"
  | none => "None"

def text (snapshot : Snapshot) : String :=
  match snapshot with
  | host s =>
    "booth " ++ s.id.text ++ " " ++ snapshot.stateName ++ ": active " ++ listText s.active ++
      ", waiting " ++ listText s.waiting ++ ", served " ++ toString s.registered.length ++
      ", offer " ++ offerText s.offer
  | visitor s =>
    "user " ++ s.id.text ++ " " ++ snapshot.stateName ++ ": booth " ++ boothText s.booth ++
      ", queue " ++ toString s.position ++ "/" ++ toString s.total ++ ", visited " ++
      listText s.visits

end Snapshot

/-- What the operator reads. -/
def Notice.text : Notice → String
  | stateChanged before after => before.label ++ " -> " ++ after.label
  | scanStarted => "scanning for booths"
  | boothDiscovered booth rssi s =>
    "found booth " ++ booth.text ++ " at " ++ toString rssi ++ " dBm " ++
      occupancyText s.current s.capacity s.waiting
  | boothSelected booth score => "selected booth " ++ booth.text ++ " (score " ++ toString score ++ ")"
  | noBoothFound => "no booth available, scanning again"
  | boothOffered booth current capacity waiting description awaitingDecision =>
    "booth " ++ booth.text ++ ": " ++ description ++ " " ++ occupancyText current capacity waiting ++
      (if awaitingDecision then " [y/n]" else "")
  | registrationRefused booth => "booth " ++ booth.text ++ " was already visited"
  | queuePosition booth position total =>
    "waiting at booth " ++ booth.text ++ ": " ++ toString position ++ " of " ++ toString total
  | queueDropped booth => "dropped from the queue of booth " ++ booth.text
  | sessionStarted booth => "session started at booth " ++ booth.text
  | sessionEnded booth reason => "session at booth " ++ booth.text ++ " ended: " ++ reason.text
  | exitConfirmed booth success =>
    "booth " ++ booth.text ++ " confirmed exit: " ++ boolText success
  | retriesExhausted booth stage =>
    "booth " ++ booth.text ++ " stopped answering (" ++ stage.text ++ ")"
  | chatReceived via (some sender) text =>
    "chat from " ++ sender.text ++ " via booth " ++ via.text ++ ": " ++ text
  | chatReceived via none text => "chat from " ++ via.text ++ ": " ++ text
  | adminMessage booth text => "booth " ++ booth.text ++ " announces: " ++ text
  | userAdmitted user => "user " ++ user.text ++ " admitted"
  | userQueued user position total =>
    "user " ++ user.text ++ " queued at " ++ toString position ++ " of " ++ toString total
  | userRefused user => "user " ++ user.text ++ " already visited"
  | userExited user => "user " ++ user.text ++ " exited"
  | sessionExpired user => "session of user " ++ user.text ++ " expired"
  | offerSent user => "slot offered to user " ++ user.text
  | offerExpired user => "offer to user " ++ user.text ++ " expired"
  | broadcastToggled enabled => "booth announces enabled: " ++ boolText enabled
  | status snapshot => snapshot.text

end BoothFloor
