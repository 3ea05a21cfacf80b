import BoothFloor.Time
import BoothFloor.Signals

/-!
# One-shot timers

A node has two timers: one for the response it waits for and one for the end of a scan. A timer
whose deadline has passed fires once, when it is polled, by raising its signal; starting or stopping
it discards an expiry that nobody has taken yet.
-/

namespace BoothFloor

/-- A timer that fires once, at or after its deadline. -/
structure Alarm where
  deadline : Option Instant := none
  deriving DecidableEq, Repr, Inhabited

namespace Alarm

def isArmed (a : Alarm) : Bool := a.deadline.isSome

def start (now : Instant) (d : Span) : Alarm := ⟨some (now.after d)⟩

def idle : Alarm := ⟨none⟩

/-- Whether the deadline has come. -/
def isDue (a : Alarm) (now : Instant) : Bool :=
  match a.deadline with
  | some t => decide (t ≤ now)
  | none => false

/-- Fire if due: a timer that fires is idle afterwards. -/
def poll (a : Alarm) (now : Instant) : Bool × Alarm :=
  if a.isDue now then (true, idle) else (false, a)

end Alarm

inductive TimerKind where
  | retry
  | selection
  deriving DecidableEq, Repr, Inhabited

/-- The signal that shows a timer's expiry. -/
def TimerKind.signal : TimerKind → Signal
  | retry => .retryTimeout
  | selection => .selectionTimeout

/-- The two timers of a node. -/
structure Timers where
  retry : Alarm := {}
  selection : Alarm := {}
  deriving DecidableEq, Repr, Inhabited

namespace Timers

def alarm (t : Timers) : TimerKind → Alarm
  | .retry => t.retry
  | .selection => t.selection

def put (t : Timers) (k : TimerKind) (a : Alarm) : Timers :=
  match k with
  | .retry => { t with retry := a }
  | .selection => { t with selection := a }

def isArmed (t : Timers) (k : TimerKind) : Bool := (t.alarm k).isArmed

@[simp]
theorem alarm_put_self (t : Timers) (k : TimerKind) (a : Alarm) : (t.put k a).alarm k = a := by
  cases k <;> rfl

theorem alarm_put_of_ne (t : Timers) {j k : TimerKind} (a : Alarm) (ne : j ≠ k) :
    (t.put k a).alarm j = t.alarm j := by
  cases j <;> cases k <;> first | rfl | exact absurd rfl ne

/-- Arm one timer. -/
def start (t : Timers) (k : TimerKind) (now : Instant) (d : Span) : Timers :=
  t.put k (Alarm.start now d)

def stop (t : Timers) (k : TimerKind) : Timers := t.put k Alarm.idle

/-- Poll one timer, raising its signal if it fires. -/
def pollOne (k : TimerKind) (now : Instant) (t : Timers) (s : Signals) : Timers × Signals :=
  match (t.alarm k).poll now with
  | (true, a) => (t.put k a, s.raise k.signal)
  | (false, _) => (t, s)

/-- Poll both timers. -/
def poll (now : Instant) (t : Timers) (s : Signals) : Timers × Signals :=
  let (t, s) := pollOne .retry now t s
  pollOne .selection now t s

end Timers

/-- The timers of a node together with the signals that show their expiry. -/
structure Alarms where
  timers : Timers := {}
  signals : Signals := {}
  deriving DecidableEq, Repr, Inhabited

namespace Alarms

/-- Arm a timer, discarding an expiry not yet taken. -/
def start (a : Alarms) (k : TimerKind) (now : Instant) (d : Span) : Alarms :=
  ⟨a.timers.start k now d, a.signals.clear k.signal⟩

/-- Disarm a timer, discarding an expiry not yet taken. -/
def stop (a : Alarms) (k : TimerKind) : Alarms := ⟨a.timers.stop k, a.signals.clear k.signal⟩

def stopAll (a : Alarms) : Alarms := (a.stop .retry).stop .selection

def poll (a : Alarms) (now : Instant) : Alarms :=
  let (t, s) := a.timers.poll now a.signals
  ⟨t, s⟩

end Alarms

end BoothFloor
