import BoothFloor.Fault
import BoothFloor.Inbox
import BoothFloor.Notice
import BoothFloor.Timers

/-!
# Inputs and actions

A node's state machine is a function from a state, a moment and an input to the next state and a
list of actions. Nothing else passes between the machine and the node that carries it.
-/

namespace BoothFloor

/-- When an input is handled: the clock's reading and the number of the tick. -/
structure Moment where
  now : Instant
  tick : Nat
  deriving DecidableEq, Repr, Inhabited

/-- What a state machine reacts to. -/
inductive Input where
  | start
  | message (source : NodeId) (message : Message) (rssi : Int16) (snr : Int8)
  | timer (kind : TimerKind)
  | intent (intent : Intent)
  | tick
  deriving DecidableEq, Repr

/-- What a state machine wants done, in order. -/
inductive Action where
  | send (dest : NodeId) (message : Message)
  | emit (notice : Notice)
  | startTimer (kind : TimerKind) (span : Span)
  | stopTimer (kind : TimerKind)
  deriving DecidableEq, Repr

namespace Action

/-- The messages among some actions. -/
def sent (acts : List Action) : List (NodeId × Message) :=
  acts.filterMap fun
    | send dest m => some (dest, m)
    | _ => none

/-- The notices among some actions. -/
def emitted (acts : List Action) : List Notice :=
  acts.filterMap fun
    | emit n => some n
    | _ => none

theorem sent_append (a b : List Action) : sent (a ++ b) = sent a ++ sent b :=
  List.filterMap_append

theorem emitted_append (a b : List Action) : emitted (a ++ b) = emitted a ++ emitted b :=
  List.filterMap_append

/-- What an action does to the timers at instant `now`. -/
def onAlarms (now : Instant) (a : Alarms) : Action → Alarms
  | startTimer kind span => a.start kind now span
  | stopTimer kind => a.stop kind
  | _ => a

/-- What some actions do to the timers, in order. -/
def alarmsAfter (now : Instant) (a : Alarms) (acts : List Action) : Alarms :=
  acts.foldl (onAlarms now) a

end Action

/-- What becomes of a state in a computation. One that goes astray ends the program, and so leaves the state as it
was, with nothing to be done. -/
def settle {σ : Type} (state : σ) : Except Fault (σ × List Action) → σ × List Action
  | .ok next => next
  | .error _ => (state, [])

/-- Carry on with the state that a first part leaves behind; the actions follow one another. -/
def andThen {σ : Type} (first : σ × List Action) (next : σ → σ × List Action) :
    σ × List Action :=
  let second := next first.1
  (second.1, first.2 ++ second.2)

end BoothFloor
