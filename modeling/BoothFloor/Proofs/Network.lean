import BoothFloor.Floor
import BoothFloor.Proofs.Node.Setup

/-!
# Nodes on an unreliable link

A network of nodes whose frames may arrive in any order, any number of times, arbitrarily late or
never. Nothing that was ever put on the air is used up; what happens next, and at which reading of
whose clock, is up to a row of moves. Only the source of a frame and those for whom it is meant can
be relied on.
-/

namespace BoothFloor

/-- Some nodes, and every frame that any of them has put on the air so far. -/
structure Network where
  nodes : List Node
  air : List Transmission := []
  deriving DecidableEq, Repr

/-- What may happen in a network. -/
inductive Move where
  /-- A node takes a step; the link takes its `i`th message iff `takes i`. -/
  | step (id : NodeId) (now : Instant) (takes : Nat → Bool)
  /-- A frame that was once on the air reaches a node for which it is meant. -/
  | deliver (t : Transmission) (id : NodeId) (reception : Reception)
  | submit (id : NodeId) (intent : Intent)
  | confirm (id : NodeId)

namespace Network

/-- The nodes with some ids under common rules, before anything has happened. -/
def ofIds (ids : List NodeId) (r : Rules) : Except NodeError Network :=
  (ids.mapM (Node.ofRules · r)).map fun nodes => { nodes := nodes }

def node? (net : Network) (id : NodeId) : Option Node := net.nodes.find? (·.id = id)

/-- Do something to the node with id `id`. -/
def alter (net : Network) (id : NodeId) (f : Node → Node) : Network :=
  { net with nodes := net.nodes.map fun n => if n.id = id then f n else n }

/-- What a node's step puts on the air. -/
def transmissions (n : Node) (now : Instant) (takes : Nat → Bool) : List Transmission :=
  RoundStep.transmissions ⟨(n.step now takes).1, (n.step now takes).2⟩

/-- The network after a move. A frame that was never on the air, or is not meant for the node, cannot
be delivered to it. -/
def move (net : Network) : Move → Network
  | .step id now takes =>
    { net.alter id fun n => (n.step now takes).1 with
      air := net.air ++ (net.nodes.filter (·.id = id)).flatMap (transmissions · now takes) }
  | .deliver t id reception =>
    if t ∈ net.air ∧ t.addresses id then
      net.alter id (·.deliver ⟨t.source, t.bytes, reception.rssi, reception.snr⟩)
    else net
  | .submit id intent => net.alter id (·.submit intent)
  | .confirm id => net.alter id (·.confirm)

/-- The network after some moves. -/
def run (net : Network) (moves : List Move) : Network := moves.foldl move net

/-- What every move keeps, a run keeps. -/
theorem run_keeps {P : Network → Prop} {net : Network} (hnet : P net)
    (hmove : ∀ net mv, P net → P (net.move mv)) (moves : List Move) : P (net.run moves) := by
  induction moves generalizing net with
  | nil => exact hnet
  | cons mv rest ih => exact ih (hmove net mv hnet)

/-- Nodes can be set up under rules that can be played by, if their ids are free. -/
theorem ofIds_eq {ids : List NodeId} {r : Rules} (valid : r.Valid)
    (free : ∀ id ∈ ids, id.isReserved = false) :
    ofIds ids r = .ok { nodes := ids.map (Node.fresh r) } := by
  rw [ofIds, Node.mapM_ofRules_eq_ok_iff.mpr ⟨fun id hid => ⟨valid, free id hid⟩, rfl⟩]
  rfl

end Network

end BoothFloor
