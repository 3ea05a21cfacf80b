/-!
# Node ids and roles

Every node has a one-byte id. A range of ids belongs to the booth hosts, every other id to a
visitor; 0 and the broadcast id belong to no node.
-/

namespace BoothFloor

/-- The address of a node on the air. -/
structure NodeId where
  byte : UInt8
  deriving DecidableEq, Repr, Inhabited

namespace NodeId

/-- The address that reaches every node but the sender. -/
def broadcast : NodeId := ⟨255⟩

def isBroadcast (id : NodeId) : Bool := id == broadcast

/-- Ids that no node may carry. -/
def isReserved (id : NodeId) : Bool := id.byte == 0 || id.isBroadcast

def ofNat (n : Nat) : NodeId := ⟨UInt8.ofNat n⟩

def toNat (id : NodeId) : Nat := id.byte.toNat

/-- The id in decimal. -/
def text (id : NodeId) : String := toString id.toNat

instance : ToString NodeId := ⟨text⟩

end NodeId

/-- A set of ids; the order of its members says nothing. -/
structure NodeSet where
  members : List NodeId := []
  deriving DecidableEq, Repr, Inhabited

namespace NodeSet

def contains (s : NodeSet) (id : NodeId) : Bool := s.members.contains id

def insert (s : NodeSet) (id : NodeId) : NodeSet := if s.contains id then s else ⟨id :: s.members⟩

end NodeSet

/-- What a node does: run a booth or visit booths. -/
inductive Role where
  | admin
  | user
  deriving DecidableEq, Repr, Inhabited

/-- The role in lower case. -/
def Role.text : Role → String
  | .admin => "admin"
  | .user => "user"

/-- The ids from `first` to `last`, both included; none if they are out of order. -/
structure IdRange where
  first : UInt8
  last : UInt8
  deriving DecidableEq, Repr, Inhabited

namespace IdRange

def contains (r : IdRange) (id : NodeId) : Bool := r.first ≤ id.byte && id.byte ≤ r.last

def count (r : IdRange) : Nat := r.last.toNat + 1 - r.first.toNat

/-- The ids of the range in ascending order. -/
def ids (r : IdRange) : List NodeId := (List.range' r.first.toNat r.count).map NodeId.ofNat

/-- Ids of the range run booths. -/
def roleOf (r : IdRange) (id : NodeId) : Role := if r.contains id then .admin else .user

end IdRange

end BoothFloor
