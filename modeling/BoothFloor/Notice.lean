import BoothFloor.Message
import BoothFloor.Time

/-!
# Notices to the operator

What a node reports to the person who runs it, and the snapshots of its state that it can be asked
for.
-/

namespace BoothFloor

/-- How far a visitor has come. -/
inductive Stage where
  | scanning
  | connected
  | waiting
  | inUse
  deriving DecidableEq, Repr, Inhabited

namespace Stage

/-- The name under which a stage is shown. -/
def label : Stage → String
  | scanning => "SCANNING"
  | connected => "CONNECTED"
  | waiting => "WAITING"
  | inUse => "IN_USE"

/-- The name under which a stage is stored. -/
def key : Stage → String
  | scanning => "scanning"
  | connected => "connected"
  | waiting => "waiting"
  | inUse => "in_use"

end Stage

/-- At which request a visitor gave up on a booth. -/
inductive RetryStage where
  | connect
  | register
  deriving DecidableEq, Repr, Inhabited

inductive EndReason where
  | exited
  | timedOut
  | forcedExpiry
  deriving DecidableEq, Repr, Inhabited

/-- What a booth host shows of itself. -/
structure HostSnapshot where
  id : NodeId
  status : BoothStatus
  description : String
  active : List NodeId
  waiting : List NodeId
  registered : List NodeId
  offer : Option NodeId
  broadcasting : Bool
  deriving DecidableEq, Repr

/-- What a visitor shows of itself; a position and total of zero mean that it knows none. -/
structure VisitorSnapshot where
  id : NodeId
  stage : Stage
  booth : Option NodeId
  position : UInt8
  total : UInt8
  sessionStart : Option Instant
  visits : List NodeId
  deriving DecidableEq, Repr

inductive Snapshot where
  | host (s : HostSnapshot)
  | visitor (s : VisitorSnapshot)
  deriving DecidableEq, Repr

namespace Snapshot

def id : Snapshot → NodeId
  | host s => s.id
  | visitor s => s.id

def role : Snapshot → Role
  | host _ => .admin
  | visitor _ => .user

/-- The name of the state; a booth host has only one. -/
def stateName : Snapshot → String
  | host _ => "ACTIVE"
  | visitor s => s.stage.label

end Snapshot

/-- What a node reports. -/
inductive Notice where
  | stateChanged (before after : Stage)
  | scanStarted
  | boothDiscovered (booth : NodeId) (rssi : Int16) (status : BoothStatus)
  | boothSelected (booth : NodeId) (score : Int)
  | noBoothFound
  | boothOffered (booth : NodeId) (current capacity waiting : UInt8) (description : String)
      (awaitingDecision : Bool)
  | registrationRefused (booth : NodeId)
  | queuePosition (booth : NodeId) (position total : UInt8)
  | queueDropped (booth : NodeId)
  | sessionStarted (booth : NodeId)
  | sessionEnded (booth : NodeId) (reason : EndReason)
  | exitConfirmed (booth : NodeId) (success : Bool)
  | retriesExhausted (booth : NodeId) (stage : RetryStage)
  | chatReceived (via : NodeId) (sender : Option NodeId) (text : String)
  | adminMessage (booth : NodeId) (text : String)
  | userAdmitted (user : NodeId)
  | userQueued (user : NodeId) (position total : UInt8)
  | userRefused (user : NodeId)
  | userExited (user : NodeId)
  | sessionExpired (user : NodeId)
  | offerSent (user : NodeId)
  | offerExpired (user : NodeId)
  | broadcastToggled (enabled : Bool)
  | status (snapshot : Snapshot)
  deriving DecidableEq, Repr

end BoothFloor
