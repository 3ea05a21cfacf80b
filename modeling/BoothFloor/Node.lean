import BoothFloor.Host
import BoothFloor.Message.Wire
import BoothFloor.Visitor

/-!
# Nodes

A node carries a state machine and runs it in steps. One step is one tick: poll the timers, read the
frames that have arrived, handle the timeouts and the intents that are pending, let the machine do
its periodic work and send what it has to say. The clock's reading and the fate of every send are
arguments, so a run is a function of what happens around the node.
-/

namespace BoothFloor

/-- The state machine of either role. -/
inductive Machine where
  | host (h : Host)
  | visitor (v : Visitor)
  deriving DecidableEq, Repr

namespace Machine

/-- The machine that an id calls for. -/
def ofRules (id : NodeId) (r : Rules) : Machine :=
  match r.hosts.roleOf id with
  | .admin => .host (.ofRules id r)
  | .user => .visitor (.ofRules id r)

def react (s : Machine) (m : Moment) (i : Input) : Machine × List Action :=
  match s with
  | host h => let (h, acts) := h.react m i; (host h, acts)
  | visitor v => let (v, acts) := v.react m i; (visitor v, acts)

/-- The fault in the machine's reaction to an input, if there is one. A host has none to fear. -/
def fault? (s : Machine) (m : Moment) (i : Input) : Option Fault :=
  match s with
  | host _ => none
  | visitor v => Fault.of? (v.attempt m i)

def id : Machine → NodeId
  | host h => h.id
  | visitor v => v.id

def role : Machine → Role
  | host _ => .admin
  | visitor _ => .user

def snapshot : Machine → Snapshot
  | host h => .host h.snapshot
  | visitor v => .visitor v.snapshot

end Machine

/-- Why a node cannot be set up. -/
inductive NodeError where
  | rules (error : RulesError)
  | reservedId (id : NodeId)
  deriving DecidableEq, Repr

def NodeError.reason : NodeError → String
  | rules error => error.reason
  | reservedId id => "Node id " ++ id.text ++ " is reserved"

/-- The text of a fault in the rules or in the id of a node. -/
def NodeError.message (e : NodeError) : String := "Configuration error: " ++ e.reason

/-- What a node counts by itself. -/
structure Counters where
  ticks : Nat := 0
  framesReceived : Nat := 0
  framesDropped : Nat := 0
  messagesSent : Nat := 0
  sendFailures : Nat := 0
  sendConfirmations : Nat := 0
  deriving DecidableEq, Repr, Inhabited

structure Node where
  rules : Rules
  machine : Machine
  inbox : Inbox
  timers : Timers := {}
  now : Instant := .zero
  tick : Nat := 0
  started : Bool := false
  counters : Counters := {}
  deriving DecidableEq, Repr

/-- A node in the middle of a step, with what the step has produced so far. A fault is the end of the program; what
the turn holds besides is what there was up to then. -/
structure Turn where
  node : Node
  sent : List (NodeId × Message) := []
  notices : List Notice := []
  fault : Option Fault := none
  deriving DecidableEq, Repr

namespace Turn

/-- Hand an input to the machine and do what it wants done. -/
def feed (t : Turn) (i : Input) : Turn :=
  let (machine, acts) := t.node.machine.react ⟨t.node.now, t.node.tick⟩ i
  let alarms := Action.alarmsAfter t.node.now ⟨t.node.timers, t.node.inbox.signals⟩ acts
  { node :=
      { t.node with
        machine := machine
        timers := alarms.timers
        inbox := { t.node.inbox with signals := alarms.signals } }
    sent := t.sent ++ Action.sent acts
    notices := t.notices ++ Action.emitted acts
    fault := t.fault.or (t.node.machine.fault? ⟨t.node.now, t.node.tick⟩ i) }

/-- Do something if a signal is set, and clear the signal first. -/
def onSignal (g : Signal) (act : Turn → Turn) (t : Turn) : Turn :=
  if t.node.inbox.signals.isSet g then
    act { t with node := { t.node with inbox := t.node.inbox.clear g } }
  else t

def countFrame (c : Counters) : Counters := { c with framesReceived := c.framesReceived + 1 }

def countDrop (c : Counters) : Counters := { c with framesDropped := c.framesDropped + 1 }

def counting (f : Counters → Counters) (t : Turn) : Turn :=
  { t with node := { t.node with counters := f t.node.counters } }

/-- Read one frame. What cannot be read is dropped. -/
def readFrame (t : Turn) (f : Frame) : Turn :=
  let t := t.counting countFrame
  match Wire.decode f.bytes (t.node.rules.hosts.roleOf f.source) with
  | .ok m => t.feed (.message f.source m f.rssi f.snr)
  | .error _ => t.counting countDrop

/-- Read every frame in the inbox, in order of arrival. -/
def readFrames (t : Turn) : Turn :=
  let (frames, inbox) := t.node.inbox.drainFrames
  frames.foldl readFrame { t with node := { t.node with inbox := inbox } }

/-- Handle every intent in the inbox, in order. -/
def readIntents (t : Turn) : Turn :=
  let (intents, inbox) := t.node.inbox.drainIntents
  intents.foldl (fun t i => t.feed (.intent i)) { t with node := { t.node with inbox := inbox } }

/-- The first step of a node starts its machine. -/
def begin (t : Turn) : Turn :=
  if t.node.started then t else { t with node := { t.node with started := true } }.feed .start

def pollTimers (t : Turn) : Turn :=
  let (timers, signals) := t.node.timers.poll t.node.now t.node.inbox.signals
  { t with
    node := { t.node with timers := timers, inbox := { t.node.inbox with signals := signals } } }

def countTick (c : Counters) : Counters := { c with ticks := c.ticks + 1 }

def countConfirmation (c : Counters) : Counters :=
  { c with sendConfirmations := c.sendConfirmations + 1 }

end Turn

/-- A message handed to the link and whether the link took it. -/
structure Dispatch where
  dest : NodeId
  message : Message
  taken : Bool
  deriving DecidableEq, Repr

/-- What a step leaves behind besides the node, and the fault that has ended it, if any. -/
structure Outcome where
  sent : List Dispatch
  notices : List Notice
  fault : Option Fault := none
  deriving DecidableEq, Repr

/-- All counters of a node, those of its inbox included. -/
structure Stats where
  counters : Counters
  framesOverwritten : Nat
  signalsCoalesced : Nat
  deriving DecidableEq, Repr

namespace Node

/-- The node with id `id`, if the rules can be played by and the id is not reserved. -/
def ofRules (id : NodeId) (r : Rules) : Except NodeError Node :=
  match r.fault? with
  | some e => .error (.rules e)
  | none =>
    if id.isReserved then .error (.reservedId id)
    else
      .ok
        { rules := r
          machine := .ofRules id r
          inbox := .empty r.frameDepth.toNat r.intentDepth.toNat }

def id (n : Node) : NodeId := n.machine.id

def snapshot (n : Node) : Snapshot := n.machine.snapshot

def stats (n : Node) : Stats where
  counters := n.counters
  framesOverwritten := n.inbox.frames.overwritten
  signalsCoalesced := n.inbox.coalesced

def deliver (n : Node) (f : Frame) : Node := { n with inbox := (n.inbox.deliver f).2 }

def submit (n : Node) (i : Intent) : Node := { n with inbox := (n.inbox.submit i).2 }

def confirm (n : Node) : Node := { n with inbox := n.inbox.confirm }

/-- The turn of a step at clock reading `now`, before anything is sent. -/
def turn (n : Node) (now : Instant) : Turn :=
  let woken : Turn := { node := { n with now := now, tick := n.tick + 1 } }
  let polled := ((woken.begin).counting Turn.countTick).pollTimers
  let read := polled.onSignal .messageArrived Turn.readFrames
  let selected := read.onSignal .selectionTimeout (·.feed (.timer .selection))
  let retried := selected.onSignal .retryTimeout (·.feed (.timer .retry))
  let heard := retried.onSignal .keyboardIntent Turn.readIntents
  let confirmed := heard.onSignal .sendConfirmed (Turn.counting Turn.countConfirmation)
  confirmed.feed .tick

/-- What becomes of the messages of a turn: `takes i` says whether the link takes the `i`th. -/
def dispatch (takes : Nat → Bool) (sent : List (NodeId × Message)) : List Dispatch :=
  sent.mapIdx fun i (dest, m) => ⟨dest, m, takes i⟩

def countSends (sent : List Dispatch) (c : Counters) : Counters :=
  let taken := sent.countP (·.taken)
  { c with
    messagesSent := c.messagesSent + taken
    sendFailures := c.sendFailures + (sent.length - taken) }

/-- One step at clock reading `now` over a link that takes the `i`th message iff `takes i`. -/
def step (n : Node) (now : Instant) (takes : Nat → Bool) : Node × Outcome :=
  let t := n.turn now
  let sent := dispatch takes t.sent
  ({ t.node with counters := countSends sent t.node.counters }, ⟨sent, t.notices, t.fault⟩)

end Node

end BoothFloor
