import BoothFloor.Mailbox
import BoothFloor.Message
import BoothFloor.Signals

/-!
# The inbox of a node

Frames from the air and intents from the console wait in two mailboxes until the node's next step.
Every hand-over raises a signal; one that finds its signal set already is counted as coalesced.
-/

namespace BoothFloor

/-- A frame as it arrives: who sent it, its bytes and how well it was heard. -/
structure Frame where
  source : NodeId
  bytes : List UInt8
  rssi : Int16
  snr : Int8
  deriving DecidableEq, Repr, Inhabited

/-- What a person at the console wants. -/
inductive Intent where
  | affirm
  | decline
  | exit
  | leaveQueue
  | chat (text : String)
  | announce (text : String)
  | toggleBroadcast
  | status
  deriving DecidableEq, Repr, Inhabited

structure Inbox where
  frames : Mailbox Frame
  intents : Mailbox Intent
  signals : Signals := {}
  coalesced : Nat := 0
  deriving DecidableEq, Repr

namespace Inbox

def empty (frameDepth intentDepth : Nat) : Inbox where
  frames := .empty frameDepth
  intents := .empty intentDepth

/-- Raise a signal, counting it if it is set already. -/
def raise (b : Inbox) (g : Signal) : Inbox :=
  { b with
    signals := b.signals.raise g
    coalesced := if b.signals.isSet g then b.coalesced + 1 else b.coalesced }

/-- Hand in a frame, which is announced if it was stored. The answer is whether it was. -/
def deliver (b : Inbox) (f : Frame) : Bool × Inbox :=
  let (stored, frames) := b.frames.send f
  let left := { b with frames := frames }
  (stored, if stored then left.raise .messageArrived else left)

/-- Hand in an intent, which is announced if it was stored. The answer is whether it was. -/
def submit (b : Inbox) (i : Intent) : Bool × Inbox :=
  let (stored, intents) := b.intents.send i
  let left := { b with intents := intents }
  (stored, if stored then left.raise .keyboardIntent else left)

/-- Report that the link has sent something. -/
def confirm (b : Inbox) : Inbox := b.raise .sendConfirmed

def drainFrames (b : Inbox) : List Frame × Inbox :=
  (b.frames.drain.1, { b with frames := b.frames.drain.2 })

def drainIntents (b : Inbox) : List Intent × Inbox :=
  (b.intents.drain.1, { b with intents := b.intents.drain.2 })

def clear (b : Inbox) (g : Signal) : Inbox := { b with signals := b.signals.clear g }

end Inbox

end BoothFloor
