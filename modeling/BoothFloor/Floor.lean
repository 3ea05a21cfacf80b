import BoothFloor.Node

/-!
# A floor of nodes

Nodes on one clock that hear each other over the air. In a round every node takes one step, in
order; then the frames of the round arrive, in the order in which they were sent.
-/

namespace BoothFloor

/-- A frame on the air. -/
structure Transmission where
  source : NodeId
  dest : NodeId
  bytes : List UInt8
  deriving DecidableEq, Repr

namespace Transmission

/-- Whether a frame is meant for a node: by its id, or for everyone but the sender. -/
def addresses (t : Transmission) (id : NodeId) : Bool :=
  id = t.dest || (t.dest.isBroadcast && id ≠ t.source)

end Transmission

/-- How well a receiver hears a sender. -/
structure Reception where
  rssi : Int16
  snr : Int8
  deriving DecidableEq, Repr, Inhabited

/-- How well, if at all, a sender (first) is heard by a receiver (second). -/
abbrev Radio := NodeId → NodeId → Option Reception

/-- The nodes of a floor and their clock. -/
structure Floor where
  nodes : List Node
  clock : Clock
  deriving DecidableEq, Repr

/-- A node's step within a round. -/
structure RoundStep where
  node : Node
  outcome : Outcome
  deriving DecidableEq, Repr

namespace RoundStep

/-- The frames that the step puts on the air. -/
def transmissions (s : RoundStep) : List Transmission :=
  (s.outcome.sent.filter (·.taken)).map fun d => ⟨s.node.id, d.dest, Wire.encode d.message⟩

end RoundStep

/-- What happened in a round: what each node reported, the frames on the air, and the fault that has ended it, if
any. -/
structure Round where
  notices : List (NodeId × List Notice)
  transmissions : List Transmission
  fault : Option Fault := none
  deriving DecidableEq, Repr

namespace Floor

/-- A node receives what is addressed to it and within its hearing. -/
def receive (radio : Radio) (n : Node) (t : Transmission) : Node :=
  if t.addresses n.id then
    match radio t.source n.id with
    | some r => n.deliver ⟨t.source, t.bytes, r.rssi, r.snr⟩
    | none => n
  else n

/-- One round: advance the clock by `d`, let every node take a step, deliver the frames. -/
def round (f : Floor) (d : Duration) (radio : Radio) : Floor × Round :=
  let clock := f.clock.advance d
  let steps := f.nodes.map fun n =>
    let (node, outcome) := n.step clock.now fun _ => true
    (⟨node, outcome⟩ : RoundStep)
  let air := steps.flatMap RoundStep.transmissions
  (⟨steps.map fun s => air.foldl (receive radio) s.node, clock⟩,
    ⟨steps.map fun s => (s.node.id, s.outcome.notices), air, steps.findSome? (·.outcome.fault)⟩)

/-- Hand an intent to the node with id `id`. -/
def submit (f : Floor) (id : NodeId) (i : Intent) : Floor :=
  { f with nodes := f.nodes.map fun n => if n.id = id then n.submit i else n }

end Floor

end BoothFloor
