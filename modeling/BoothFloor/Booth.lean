import BoothFloor.Rules

/-!
# A booth and who is at it

A booth's register: who is inside, who was ever admitted, who waits and which waiter has been
offered the next slot. The operations here keep the limits of the lists; when they are used is
decided in `BoothFloor.Booth.Admission`.
-/

namespace BoothFloor

/-- A visitor inside a booth and since when. -/
structure Session where
  user : NodeId
  start : Instant
  deriving DecidableEq, Repr, Inhabited

/-- The next slot, offered to a waiter. -/
structure Offer where
  user : NodeId
  since : Instant
  deriving DecidableEq, Repr, Inhabited

/-- Which list of a booth is full. -/
inductive RegistryError where
  | activeListFull (capacity : Nat)
  | registeredListFull (limit : Nat)
  | waitingQueueFull (limit : Nat)
  deriving DecidableEq, Repr

def RegistryError.message : RegistryError → String
  | activeListFull capacity => "Booth is at capacity (" ++ toString capacity ++ " active users)"
  | registeredListFull limit => "Registered user list is full (" ++ toString limit ++ " users)"
  | waitingQueueFull limit => "Waiting queue is full (" ++ toString limit ++ " users)"

/-- A booth: `active` in order of admission, `admitted` the set of everyone ever admitted and `registered`
the same users in order of admission, `waiting` in order of arrival. -/
structure Booth where
  id : NodeId
  capacity : Nat
  maxUsers : Nat
  description : String
  active : List Session := []
  admitted : NodeSet := {}
  registered : List NodeId := []
  waiting : List NodeId := []
  offer : Option Offer := none
  deriving DecidableEq, Repr, Inhabited

/-- The count as one byte, the largest one if it does not fit. -/
def clampByte (n : Nat) : UInt8 := UInt8.ofNat (min n 255)

namespace Booth

/-- An empty booth with the given limits. -/
def opened (id : NodeId) (capacity maxUsers : Nat) (description : String) : Booth where
  id := id
  capacity := capacity
  maxUsers := maxUsers
  description := description

/-- The empty booth that host `id` opens under the rules. -/
def ofRules (id : NodeId) (r : Rules) : Booth :=
  opened id r.boothCapacity.toNat r.maxUsers.toNat (r.descriptionFor id)

def hasFreeSlot (b : Booth) : Bool := b.active.length < b.capacity

/-- The users inside, in order of admission. -/
def activeUsers (b : Booth) : List NodeId := b.active.map (·.user)

def isActive (b : Booth) (u : NodeId) : Bool := b.active.any (·.user == u)

/-- Whether a user was ever admitted is looked up in the set. -/
def isRegistered (b : Booth) (u : NodeId) : Bool := b.admitted.contains u

def isWaiting (b : Booth) (u : NodeId) : Bool := b.waiting.contains u

/-- A waiter's place in the queue, counted from one. -/
def position? (b : Booth) (u : NodeId) : Option Nat := (b.waiting.idxOf? u).map (· + 1)

def isOffered (b : Booth) (u : NodeId) : Bool :=
  match b.offer with
  | some o => o.user == u
  | none => false

/-- The counts as the booth announces them. -/
def status (b : Booth) : BoothStatus where
  booth := b.id
  current := clampByte b.active.length
  capacity := clampByte b.capacity
  waiting := clampByte b.waiting.length

/-- Note that a user was admitted, in the set and at the end of the list; the answer is `false` if that was
noted before. -/
def record (b : Booth) (u : NodeId) : Except RegistryError (Bool × Booth) :=
  if b.isRegistered u then .ok (false, b)
  else if b.maxUsers ≤ b.registered.length then .error (.registeredListFull b.maxUsers)
  else .ok (true, { b with admitted := b.admitted.insert u, registered := b.registered ++ [u] })

/-- Let a user in; one who is inside stays as before. -/
def addActive (b : Booth) (u : NodeId) (now : Instant) : Except RegistryError Booth :=
  if b.isActive u then .ok b
  else if b.capacity ≤ b.active.length then .error (.activeListFull b.capacity)
  else .ok { b with active := b.active ++ [⟨u, now⟩] }

/-- Take a user's session off the list of those inside. -/
def removeActive (b : Booth) (u : NodeId) : Option Session × Booth :=
  (b.active.find? (·.user == u), { b with active := b.active.eraseP (·.user == u) })

/-- Put a user at the end of the queue, one who waits already keeps its place. The answer is the
user's place. -/
def enqueue (b : Booth) (u : NodeId) : Except RegistryError (Nat × Booth) :=
  match b.position? u with
  | some p => .ok (p, b)
  | none =>
    if b.maxUsers ≤ b.waiting.length then .error (.waitingQueueFull b.maxUsers)
    else .ok (b.waiting.length + 1, { b with waiting := b.waiting ++ [u] })

/-- Take a user off the queue. -/
def removeWaiting (b : Booth) (u : NodeId) : Booth := { b with waiting := b.waiting.erase u }

def setOffer (b : Booth) (u : NodeId) (now : Instant) : Booth := { b with offer := some ⟨u, now⟩ }

def clearOffer (b : Booth) : Booth := { b with offer := none }

end Booth

end BoothFloor
