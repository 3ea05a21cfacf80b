import BoothFloor.Message

/-!
# Booths heard during a scan

A bounded table of the booths heard in one scan window, in the order in which each was first heard,
and the choice among them: the earliest entry of greatest score.
-/

namespace BoothFloor

/-- A booth's latest announcement and how well it was heard. -/
structure Sighting where
  booth : NodeId
  rssi : Int16
  snr : Int8
  current : UInt8
  capacity : UInt8
  waiting : UInt8
  valid : Bool
  deriving DecidableEq, Repr, Inhabited

namespace Sighting

def ofStatus (s : BoothStatus) (rssi : Int16) (snr : Int8) : Sighting where
  booth := s.booth
  rssi := rssi
  snr := snr
  current := s.current
  capacity := s.capacity
  waiting := s.waiting
  valid := true

def hasFreeSlot (e : Sighting) : Bool := e.current < e.capacity

/-- Signal strength, twenty more for a free slot and ten less for everyone who waits. -/
def score (e : Sighting) : Int :=
  e.rssi.toInt + (if e.hasFreeSlot then 20 else 0) - 10 * (e.waiting.toNat : Int)

/-- Keep the better of the best so far and one more entry; a tie keeps the former. -/
def better (best : Option Sighting) (e : Sighting) : Option Sighting :=
  match best with
  | some b => if e.score ≤ b.score then some b else some e
  | none => some e

/-- The valid entry of greatest score, the earliest of several. -/
def best (entries : List Sighting) : Option Sighting :=
  (entries.filter (·.valid)).foldl better none

end Sighting

/-- At most `limit` sightings, in the order in which their booths were first heard. -/
structure Sightings where
  limit : Nat
  entries : List Sighting := []
  deriving DecidableEq, Repr, Inhabited

namespace Sightings

def get? (t : Sightings) (booth : NodeId) : Option Sighting :=
  t.entries.find? (·.booth == booth)

/-- Note an announcement: it replaces an earlier one of its booth in place, and a new booth goes to
the end. The answer tells whether it was noted; a new booth does not fit into a full table. -/
def record (t : Sightings) (status : BoothStatus) (rssi : Int16) (snr : Int8) : Bool × Sightings :=
  let e := Sighting.ofStatus status rssi snr
  if (t.get? status.booth).isSome then
    (true, { t with entries := t.entries.map fun old => if old.booth = status.booth then e else old })
  else if t.entries.length < t.limit then (true, { t with entries := t.entries ++ [e] })
  else (false, t)

/-- Exclude a booth from the choice without forgetting it. -/
def invalidate (t : Sightings) (booth : NodeId) : Sightings :=
  { t with
    entries := t.entries.map fun e => if e.booth = booth then { e with valid := false } else e }

def reset (t : Sightings) : Sightings := { t with entries := [] }

/-- The booth to ask, if any. -/
def choice (t : Sightings) : Option NodeId := (Sighting.best t.entries).map (·.booth)

end Sightings

end BoothFloor
