import BoothFloor.Inbox

/-!
# Handing frames over between threads

The frames of a node come from threads of their own, and the node takes them out in its own one. What such a
thread does is a row of single operations on the mailbox, the signals and the counters that all of them share,
and each of these happens at once. Any number of producers and the consumer take their steps in any order.
-/

namespace BoothFloor

namespace Mailbox

variable {α : Type}

/-- How an attempt to append an entry ends. -/
inductive Attempt (α : Type) where
  | stored (left : Mailbox α)
  | full
  /-- There is no end left at which the entry could be taken out. -/
  | disconnected
  deriving DecidableEq, Repr

/-- Append an entry, if there is room and a receiving end. -/
def trySend (m : Mailbox α) (a : α) : Attempt α :=
  if m.receivers = 0 then .disconnected
  else if m.items.length < m.depth then .stored { m with items := m.items ++ [a] }
  else .full

/-- Take out the oldest entry, if there is one. -/
def tryRecv (m : Mailbox α) : Option (α × Mailbox α) :=
  match m.items with
  | [] => none
  | a :: rest => some (a, { m with items := rest })

/-- An entry less is left once one has been taken out. -/
theorem length_of_tryRecv {m rest : Mailbox α} {a : α} (h : m.tryRecv = some (a, rest)) :
    rest.items.length < m.items.length := by
  unfold tryRecv at h
  split at h
  · cases h
  · next first later heq =>
    cases h
    rw [heq]
    exact Nat.lt_succ_self _

/-- Try to append an entry, and as long as there is no room, take out and count the oldest entry and try again;
give up if no receiving end is left: whether the entry was stored, how many had to go, and what the mailbox is then.
Where there is neither room nor an entry to take out, the attempts never end. -/
def overwrite (m : Mailbox α) (a : α) : Option (Bool × Nat × Mailbox α) :=
  match m.trySend a with
  | .stored left => some (true, 0, left)
  | .disconnected => some (false, 0, m)
  | .full =>
    match _oldest : m.tryRecv with
    | some (_, rest) =>
      (overwrite { rest with overwritten := rest.overwritten + 1 } a).map fun (stored, gone, left) =>
        (stored, gone + 1, left)
    | none => none
termination_by m.items.length
decreasing_by exact length_of_tryRecv (by assumption)

end Mailbox

/-- What an operation does to a frame: it puts the frame into the mailbox, or takes it out, to make room or to
read it. -/
inductive Transfer where
  | stored (f : Frame)
  | evicted (f : Frame)
  | drained (f : Frame)
  deriving DecidableEq, Repr

/-- The next operation of a producer, with the frame that it has to hand over. -/
inductive Producer where
  | idle
  | sending (f : Frame)
  /-- The mailbox was full, so its oldest frame has to go. -/
  | evicting (f : Frame)
  /-- The oldest frame is gone and has to be counted. -/
  | counting (f : Frame)
  /-- The frame is in the mailbox and has to be announced. -/
  | raising
  /-- The signal was set already, which has to be counted. -/
  | coalescing
  deriving DecidableEq, Repr

/-- What the consumer is about to do: ask for the signal, or take out the next frame. -/
inductive Consumer where
  | idle
  | draining
  deriving DecidableEq, Repr

/-- The next operation of a producer on the inbox. -/
def Producer.step (p : Producer) (b : Inbox) : Producer × Inbox × List Transfer :=
  match p with
  | idle => (idle, b, [])
  | sending f =>
    match b.frames.trySend f with
    | .stored frames => (raising, { b with frames := frames }, [.stored f])
    | .full => (evicting f, b, [])
    | .disconnected => (idle, b, [])
  | evicting f =>
    match b.frames.tryRecv with
    | some (oldest, frames) => (counting f, { b with frames := frames }, [.evicted oldest])
    | none => (sending f, b, [])
  | counting f =>
    (sending f, { b with frames := { b.frames with overwritten := b.frames.overwritten + 1 } }, [])
  | raising =>
    (if b.signals.isSet .messageArrived then coalescing else idle,
      { b with signals := b.signals.raise .messageArrived }, [])
  | coalescing => (idle, { b with coalesced := b.coalesced + 1 }, [])

/-- The next operation of the consumer on the inbox. Asking for the signal clears it. -/
def Consumer.step (c : Consumer) (b : Inbox) : Consumer × Inbox × List Transfer :=
  match c with
  | idle => (if b.signals.isSet .messageArrived then draining else idle, b.clear .messageArrived, [])
  | draining =>
    match b.frames.tryRecv with
    | some (f, frames) => (draining, { b with frames := frames }, [.drained f])
    | none => (idle, b, [])

/-- An inbox with the threads that share it, and the transfers so far. -/
structure Handoff where
  inbox : Inbox
  producers : List Producer
  consumer : Consumer := .idle
  log : List Transfer := []
  deriving DecidableEq, Repr

namespace Handoff

/-- What can happen next. -/
inductive Move where
  /-- A producer that is idle gets a frame to hand over. -/
  | begin (k : Nat) (f : Frame)
  | produce (k : Nat)
  | consume
  /-- Another part of the node or another thread sets or clears a signal of its own. -/
  | signal (g : Signal) (value : Bool)
  deriving DecidableEq, Repr

/-- The empty inbox with some idle producers. -/
def idle (frameDepth intentDepth producers : Nat) : Handoff where
  inbox := .empty frameDepth intentDepth
  producers := .replicate producers .idle

def step (h : Handoff) : Move → Handoff
  | .begin k f =>
    if h.producers[k]? = some .idle then { h with producers := h.producers.set k (.sending f) } else h
  | .produce k =>
    match h.producers[k]? with
    | some p =>
      let (p, b, log) := p.step h.inbox
      { h with inbox := b, producers := h.producers.set k p, log := h.log ++ log }
    | none => h
  | .consume =>
    let (c, b, log) := h.consumer.step h.inbox
    { h with inbox := b, consumer := c, log := h.log ++ log }
  | .signal g value =>
    if g = .messageArrived then h
    else { h with inbox := { h.inbox with signals := h.inbox.signals.put g value } }

/-- What becomes of the inbox and its threads by some moves, in order. -/
def run (h : Handoff) (schedule : List Move) : Handoff := schedule.foldl step h

end Handoff

end BoothFloor
