import BoothFloor.Booth

/-!
# Admission to a booth

Who is let in, who waits and who is refused. Everyone who waits ahead of a user reserves one slot,
so nobody overtakes the queue, and a slot that becomes free is offered to the head of the queue,
which has a limited time to take it.
-/

namespace BoothFloor

/-- The answer to a request to register. -/
inductive Verdict where
  | admitted (leftQueue : Bool)
  | alreadyActive
  | alreadyUsed
  | queued (position total : Nat)
  | rejected (error : RegistryError)
  deriving DecidableEq, Repr

namespace Booth

/-- How many waiters come before a user: those ahead of it, or the whole queue. -/
def ahead (b : Booth) (u : NodeId) : Nat :=
  match b.position? u with
  | some p => p - 1
  | none => b.waiting.length

/-- Withdraw the offer if this user holds it. -/
def releaseOffer (b : Booth) (u : NodeId) : Booth := if b.isOffered u then b.clearOffer else b

/-- Let a user in from the queue or from outside: its offer and its place are given up first, then it is
listed and gets its session. A step that fails leaves what the steps before it did. -/
def letIn (b : Booth) (u : NodeId) (now : Instant) : Except RegistryError Unit × Booth :=
  let freed := (b.releaseOffer u).removeWaiting u
  match freed.record u with
  | .error e => (.error e, freed)
  | .ok (_, listed) =>
    match listed.addActive u now with
    | .error e => (.error e, listed)
    | .ok inside => (.ok (), inside)

/-- Judge a request to register. A user who is inside is confirmed again, one who was inside is
refused; without a slot beyond those reserved for the waiters ahead the user has to wait. -/
def register (b : Booth) (u : NodeId) (now : Instant) : Verdict × Booth :=
  if b.isActive u then (.alreadyActive, b)
  else if b.isRegistered u then (.alreadyUsed, b)
  else if b.capacity ≤ b.active.length + b.ahead u then
    match b.enqueue u with
    | .ok (position, b') => (.queued position b'.waiting.length, b')
    | .error e => (.rejected e, b)
  else if b.maxUsers ≤ b.registered.length then (.rejected (.registeredListFull b.maxUsers), b)
  else
    match b.letIn u now with
    | (.ok (), b') => (.admitted (b.isWaiting u), b')
    | (.error e, b') => (.rejected e, b')

/-- Offer a free slot to the head of the queue, unless an offer is outstanding. -/
def offerNext (b : Booth) (now : Instant) : Option NodeId × Booth :=
  if b.offer.isSome || !b.hasFreeSlot then (none, b)
  else
    match b.waiting with
    | [] => (none, b)
    | head :: _ => (some head, b.setOffer head now)

/-- What a user's leaving the queue changed. -/
structure Departure where
  removed : Bool
  offerReleased : Bool
  deriving DecidableEq, Repr

/-- Take a user off the queue together with its offer. -/
def leaveQueue (b : Booth) (u : NodeId) : Departure × Booth :=
  (⟨b.isWaiting u, b.isOffered u⟩, (b.removeWaiting u).releaseOffer u)

/-- What every waiter is told of its place. -/
def queueUpdates (b : Booth) : List (NodeId × Message) :=
  b.waiting.mapIdx fun i u => (u, .queueUpdate (clampByte (i + 1)) (clampByte b.waiting.length))

/-- The users whose sessions have lasted for `limit`. -/
def expired (b : Booth) (now : Instant) (limit : Span) : List NodeId :=
  (b.active.filter fun s => limit ≤ now.since s.start).map (·.user)

/-- Take out every user whose session has lasted for `limit`. -/
def sweepSessions (b : Booth) (now : Instant) (limit : Span) : List NodeId × Booth :=
  let gone := b.expired now limit
  (gone, gone.foldl (fun b u => (b.removeActive u).2) b)

/-- Withdraw an offer that has lasted longer than `limit`; its holder loses its place. -/
def sweepOffer (b : Booth) (now : Instant) (limit : Span) : Option NodeId × Booth :=
  match b.offer with
  | some o =>
    if limit < now.since o.since then (some o.user, b.clearOffer.removeWaiting o.user) else (none, b)
  | none => (none, b)

end Booth

end BoothFloor
