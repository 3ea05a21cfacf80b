import BoothFloor.Action
import BoothFloor.Booth.Admission

/-!
# The booth host

A node that runs a booth: it announces how full the booth is, answers requests, relays chat among
those inside and, at every sweep, ends sessions and offers that have lasted too long.
-/

namespace BoothFloor

structure Host where
  rules : Rules
  booth : Booth
  broadcasting : Bool
  deriving DecidableEq, Repr

namespace Host

/-- The host with id `id`, its booth empty. -/
def ofRules (id : NodeId) (r : Rules) : Host := ⟨r, .ofRules id r, r.broadcastEnabled⟩

def id (h : Host) : NodeId := h.booth.id

def snapshot (h : Host) : HostSnapshot where
  id := h.booth.id
  status := h.booth.status
  description := h.booth.description
  active := h.booth.activeUsers
  waiting := h.booth.waiting
  registered := h.booth.registered
  offer := h.booth.offer.map (·.user)
  broadcasting := h.broadcasting

/-- Tell `dest` how full the booth is. -/
def announceTo (h : Host) (dest : NodeId) : List Action :=
  [.send dest (.boothAnnounce h.booth.status)]

/-- Tell every waiter its place. -/
def tellQueue (b : Booth) : List Action := b.queueUpdates.map fun (u, m) => .send u m

/-- Offer a free slot to the head of the queue, if that can be done. -/
def offerSlot (now : Instant) (h : Host) : Host × List Action :=
  match h.booth.offerNext now with
  | (some u, b) => ({ h with booth := b }, [.send u .queueReady, .emit (.offerSent u)])
  | (none, b) => ({ h with booth := b }, [])

def onRegister (h : Host) (now : Instant) (u : NodeId) : Host × List Action :=
  let (verdict, b) := h.booth.register u now
  let h := { h with booth := b }
  match verdict with
  | .admitted leftQueue =>
    let welcome : List Action :=
      [.send u (.registerResponse true .success), .emit (.userAdmitted u)]
    if leftQueue then andThen (h, welcome ++ tellQueue b) (offerSlot now) else (h, welcome)
  | .alreadyActive => (h, [.send u (.registerResponse true .success)])
  | .alreadyUsed => (h, [.send u (.registerResponse false .alreadyUsed), .emit (.userRefused u)])
  | .queued position total =>
    (h, [.send u (.registerResponse false .fullWaiting),
      .send u (.queueInfo (clampByte position) (clampByte total)),
      .emit (.userQueued u (clampByte position) (clampByte total))])
  | .rejected _ => (h, [])

def onExit (h : Host) (now : Instant) (u : NodeId) : Host × List Action :=
  match h.booth.removeActive u with
  | (none, _) => (h, [.send u (.exitResponse false)])
  | (some _, b) =>
    andThen ({ h with booth := b }, [.send u (.exitResponse true), .emit (.userExited u)])
      (offerSlot now)

def onQueueLeave (h : Host) (now : Instant) (u : NodeId) : Host × List Action :=
  let (departure, b) := h.booth.leaveQueue u
  let told := ({ h with booth := b }, if departure.removed then tellQueue b else [])
  if departure.offerReleased then andThen told (offerSlot now) else told

/-- Pass chat on to everyone else inside; those outside are not heard. -/
def onChat (h : Host) (u : NodeId) (text : String) : Host × List Action :=
  if h.booth.isActive u then
    (h, (h.booth.activeUsers.filter (· ≠ u)).map (fun v => .send v (.chat (some u) text)) ++
      [.emit (.chatReceived u (some u) text)])
  else (h, [])

/-- A message from another node; those of other hosts are ignored. -/
def onMessage (h : Host) (now : Instant) (source : NodeId) (m : Message) : Host × List Action :=
  if h.rules.isHost source then (h, [])
  else
    match m with
    | .boothScan => (h, h.announceTo source)
    | .connectRequest =>
      let s := h.booth.status
      (h, [.send source (.boothInfo s.current s.capacity s.waiting h.booth.description)])
    | .registerRequest => h.onRegister now source
    | .exitRequest => h.onExit now source
    | .queueLeave => h.onQueueLeave now source
    | .chat _ text => h.onChat source text
    | _ => (h, [])

def onIntent (h : Host) : Intent → Host × List Action
  | .announce text => (h, [.send .broadcast (.adminMessage text)])
  | .chat text => (h, h.booth.activeUsers.map fun u => .send u (.adminMessage text))
  | .toggleBroadcast =>
    let h := { h with broadcasting := !h.broadcasting }
    (h, [.emit (.broadcastToggled h.broadcasting)])
  | .status => (h, [.emit (.status (.host h.snapshot))])
  | _ => (h, [])

/-- End the sessions that have lasted too long. -/
def sweepSessions (now : Instant) (h : Host) : Host × List Action :=
  let (gone, b) := h.booth.sweepSessions now h.rules.sessionDuration
  ({ h with booth := b }, gone.flatMap fun u => [.send u .timeoutAlert, .emit (.sessionExpired u)])

/-- Withdraw an offer that nobody took in time. -/
def sweepOffer (now : Instant) (h : Host) : Host × List Action :=
  match h.booth.sweepOffer now h.rules.queueReadyTimeout with
  | (some u, b) =>
    ({ h with booth := b },
      [.send u (.queueUpdate 0 0), .emit (.offerExpired u)] ++ tellQueue b)
  | (none, b) => ({ h with booth := b }, [])

/-- End what has lasted too long, then offer a slot that has become free. -/
def sweep (now : Instant) (h : Host) : Host × List Action :=
  andThen (andThen (sweepSessions now h) (sweepOffer now)) (offerSlot now)

/-- Periodic announcement. -/
def broadcast (tick : Nat) (h : Host) : Host × List Action :=
  if h.broadcasting ∧ tick % h.rules.broadcastInterval.toNat = 0 then
    (h, h.announceTo .broadcast)
  else (h, [])

def onTick (h : Host) (m : Moment) : Host × List Action :=
  let swept := if m.tick % h.rules.sweepInterval.toNat = 0 then sweep m.now h else (h, [])
  andThen swept (broadcast m.tick)

/-- The host's reaction to an input. -/
def react (h : Host) (m : Moment) : Input → Host × List Action
  | .start => (h, h.announceTo .broadcast)
  | .message source message _ _ => h.onMessage m.now source message
  | .timer _ => (h, [])
  | .intent i => h.onIntent i
  | .tick => h.onTick m

end Host

end BoothFloor
