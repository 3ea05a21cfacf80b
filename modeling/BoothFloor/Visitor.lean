import BoothFloor.Action
import BoothFloor.Rules
import BoothFloor.Sightings

/-!
# The visitor

A node that looks for booths, asks the best one for admission, waits in its queue if it must, and
leaves when its time is over. Every answer it waits for is guarded by the retry timer and a ceiling
on retries, and a booth that it has visited or that refused it is not asked again.
-/

namespace BoothFloor

/-- The answer that a visitor with a booth in view waits for. -/
inductive Awaiting where
  | boothInfo
  | decision
  | registration
  deriving DecidableEq, Repr, Inhabited

/-- A place in a queue. -/
structure Place where
  position : UInt8
  total : UInt8
  deriving DecidableEq, Repr, Inhabited

/-- Where a visitor stands. -/
inductive Phase where
  | scanning
  /-- In touch with a booth whose next answer is still out. -/
  | connected (booth : NodeId) (awaiting : Awaiting)
  /-- In the queue of a booth: whether the visitor is claiming an offered slot, and its place as far
  as it was told. -/
  | waiting (booth : NodeId) (claiming : Bool) (place : Option Place)
  | inUse (booth : NodeId) (start : Instant)
  deriving DecidableEq, Repr, Inhabited

namespace Phase

def stage : Phase → Stage
  | scanning => .scanning
  | connected .. => .connected
  | waiting .. => .waiting
  | inUse .. => .inUse

/-- The booth that the visitor deals with. -/
def booth? : Phase → Option NodeId
  | scanning => none
  | connected b _ | waiting b _ _ | inUse b _ => some b

def start? : Phase → Option Instant
  | inUse _ t => some t
  | _ => none

/-- The place in the queue; outside a queue there is none. -/
def place? : Phase → Option Place
  | waiting _ _ p => p
  | _ => none

/-- The answer that a visitor in this phase waits for. A waiter waits for one while it claims a slot. -/
def awaiting? : Phase → Option Awaiting
  | connected _ awaiting => some awaiting
  | waiting _ true _ => some .registration
  | _ => none

end Phase

structure Visitor where
  id : NodeId
  rules : Rules
  phase : Phase := .scanning
  sightings : Sightings
  scanOpen : Bool := false
  /-- The tick of the last start or end of a scan or return to scanning. -/
  lastScan : Nat := 0
  connectRetries : Nat := 0
  registerRetries : Nat := 0
  /-- The booths of all sessions so far, in order. -/
  visits : List NodeId := []
  /-- Booths not to be asked again. -/
  spent : List NodeId := []
  deriving DecidableEq, Repr

namespace Visitor

/-- The visitor with id `id` before its first scan. -/
def ofRules (id : NodeId) (r : Rules) : Visitor where
  id := id
  rules := r
  sightings := { limit := r.hosts.count }

def stage (v : Visitor) : Stage := v.phase.stage

def booth? (v : Visitor) : Option NodeId := v.phase.booth?

def snapshot (v : Visitor) : VisitorSnapshot where
  id := v.id
  stage := v.stage
  booth := v.booth?
  position := (v.phase.place?.map (·.position)).getD 0
  total := (v.phase.place?.map (·.total)).getD 0
  sessionStart := v.phase.start?
  visits := v.visits

/-- Exclude a booth from later scans. -/
def markSpent (v : Visitor) (booth : NodeId) : Visitor :=
  if booth ∈ v.spent then v else { v with spent := v.spent ++ [booth] }

/-- Move to another phase, reporting a change of stage. -/
def moveTo (v : Visitor) (p : Phase) : Visitor × List Action :=
  ({ v with phase := p },
    if v.stage = p.stage then [] else [.emit (.stateChanged v.stage p.stage)])

/-- Drop everything that concerns the present booth. -/
def backToScanning (tick : Nat) (v : Visitor) : Visitor × List Action :=
  andThen
    ({ v with
        sightings := v.sightings.reset
        scanOpen := false
        lastScan := tick
        connectRetries := 0
        registerRetries := 0 },
      [.stopTimer .retry, .stopTimer .selection])
    (·.moveTo .scanning)

/-- Ask every host to announce itself and open the scan window. -/
def startScan (tick : Nat) (v : Visitor) : Visitor × List Action :=
  ({ v with sightings := v.sightings.reset, scanOpen := true, lastScan := tick },
    v.rules.hosts.ids.map (fun h => .send h .boothScan) ++
      [.startTimer .selection v.rules.selectionDwell, .emit .scanStarted])

def connectActions (v : Visitor) (booth : NodeId) : List Action :=
  [.send booth .connectRequest, .startTimer .retry v.rules.connectTimeout]

def registerActions (v : Visitor) (booth : NodeId) : List Action :=
  [.send booth .registerRequest, .startTimer .retry v.rules.registerTimeout]

/-- Accept a booth and ask it for admission. -/
def affirmActions (v : Visitor) (booth : NodeId) : List Action :=
  .send booth (.userResponse true) :: v.registerActions booth

def giveUp (tick : Nat) (booth : NodeId) (stage : RetryStage) (v : Visitor) :
    Visitor × List Action :=
  andThen (v, [.emit (.retriesExhausted booth stage)]) (backToScanning tick)

def endSession (tick : Nat) (booth : NodeId) (reason : EndReason) (v : Visitor) :
    Visitor × List Action :=
  andThen (v, [.emit (.sessionEnded booth reason)]) (backToScanning tick)

/-- The scan window closes: ask the best booth heard, if any. -/
def onSelectionTimeout (v : Visitor) (tick : Nat) : Visitor × List Action :=
  if v.stage = .scanning ∧ v.scanOpen then
    let v := { v with scanOpen := false, lastScan := tick }
    match v.sightings.choice with
    | none => ({ v with sightings := v.sightings.reset }, [.emit .noBoothFound])
    | some booth =>
      let score := ((v.sightings.get? booth).map (·.score)).getD 0
      andThen
        ({ v with connectRetries := 0 },
          .emit (.boothSelected booth score) :: v.connectActions booth)
        (·.moveTo (.connected booth .boothInfo))
  else (v, [])

/-- An answer is overdue: ask again, or give up once the ceiling is reached. -/
def onRetryTimeout (v : Visitor) (tick : Nat) : Visitor × List Action :=
  match v.phase with
  | .connected booth .boothInfo =>
    if v.connectRetries < v.rules.connectRetryLimit.toNat then
      ({ v with connectRetries := v.connectRetries + 1 }, v.connectActions booth)
    else v.giveUp tick booth .connect
  | .connected booth .registration =>
    if v.registerRetries < v.rules.registerRetryLimit.toNat then
      ({ v with registerRetries := v.registerRetries + 1 }, v.affirmActions booth)
    else v.giveUp tick booth .register
  | .waiting booth true _ =>
    if v.registerRetries < v.rules.registerRetryLimit.toNat then
      ({ v with registerRetries := v.registerRetries + 1 }, v.registerActions booth)
    else andThen (v, [.send booth .queueLeave]) (giveUp tick booth .register)
  | _ => (v, [])

/-- An announcement counts only while the scan window is open and if it speaks of a host. -/
def onAnnounce (v : Visitor) (s : BoothStatus) (rssi : Int16) (snr : Int8) :
    Visitor × List Action :=
  if v.stage = .scanning ∧ v.scanOpen ∧ v.rules.isHost s.booth then
    match v.sightings.record s rssi snr with
    | (true, t) =>
      ({ v with sightings := if s.booth ∈ v.spent then t.invalidate s.booth else t },
        [.emit (.boothDiscovered s.booth rssi s)])
    | (false, t) => ({ v with sightings := t }, [])
  else (v, [])

/-- The booth introduces itself: accept it at once, or leave that to the person at the console. -/
def onBoothInfo (v : Visitor) (current capacity waiting : UInt8) (description : String) :
    Visitor × List Action :=
  match v.phase with
  | .connected booth .boothInfo =>
    let told : List Action :=
      [.stopTimer .retry,
        .emit (.boothOffered booth current capacity waiting description (!v.rules.autoAffirm))]
    let v := { v with registerRetries := 0 }
    if v.rules.autoAffirm then
      ({ v with phase := .connected booth .registration }, told ++ v.affirmActions booth)
    else ({ v with phase := .connected booth .decision }, told)
  | _ => (v, [])

/-- The booth for whose answer to a registration the visitor waits. -/
def registering? (v : Visitor) : Option NodeId :=
  match v.phase with
  | .connected booth .registration => some booth
  | .waiting booth true _ => some booth
  | _ => none

/-- The answer to a registration: a session, a place in the queue or a refusal. An answer that
contradicts itself is ignored. -/
def onRegisterResponse (v : Visitor) (m : Moment) (success : Bool) (reason : RegisterReason) :
    Visitor × List Action :=
  match v.registering? with
  | none => (v, [])
  | some booth =>
    match success, reason with
    | true, _ =>
      andThen
        ({ v with visits := v.visits ++ [booth] }.markSpent booth,
          [.stopTimer .retry, .emit (.sessionStarted booth)])
        (·.moveTo (.inUse booth m.now))
    | false, .success => (v, [])
    | false, .fullWaiting =>
      andThen (v, [.stopTimer .retry]) (·.moveTo (.waiting booth false v.phase.place?))
    | false, .alreadyUsed =>
      andThen (v.markSpent booth, [.stopTimer .retry, .emit (.registrationRefused booth)])
        (backToScanning m.tick)

/-- News of the place in the queue; a zero says that the visitor was dropped. -/
def onQueuePosition (v : Visitor) (tick : Nat) (position total : UInt8) : Visitor × List Action :=
  match v.phase with
  | .waiting booth claiming _ =>
    if position = 0 ∨ total = 0 then
      andThen (v, [.emit (.queueDropped booth)]) (backToScanning tick)
    else
      ({ v with phase := .waiting booth claiming (some ⟨position, total⟩) },
        [.emit (.queuePosition booth position total)])
  | _ => (v, [])

/-- A slot is offered: claim it. -/
def onQueueReady (v : Visitor) : Visitor × List Action :=
  match v.phase with
  | .waiting booth _ place =>
    ({ v with registerRetries := 0, phase := .waiting booth true place }, v.registerActions booth)
  | _ => (v, [])

def onTimeoutAlert (v : Visitor) (tick : Nat) : Visitor × List Action :=
  match v.phase with
  | .inUse booth _ => v.endSession tick booth .timedOut
  | _ => (v, [])

/-- A message from the booth that the visitor deals with. -/
def onBoothMessage (v : Visitor) (m : Moment) : Message → Visitor × List Action
  | .boothInfo current capacity waiting description =>
    v.onBoothInfo current capacity waiting description
  | .registerResponse success reason => v.onRegisterResponse m success reason
  | .queueInfo position total | .queueUpdate position total => v.onQueuePosition m.tick position total
  | .queueReady => v.onQueueReady
  | .timeoutAlert => v.onTimeoutAlert m.tick
  | _ => (v, [])

/-- A message from another node. Announcements, chat and confirmations of an exit are taken from
anyone, all else only from the booth that the visitor deals with. -/
def onMessage (v : Visitor) (m : Moment) (source : NodeId) (message : Message) (rssi : Int16)
    (snr : Int8) : Visitor × List Action :=
  match message with
  | .boothAnnounce s => v.onAnnounce s rssi snr
  | .adminMessage text => (v, [.emit (.adminMessage source text)])
  | .chat sender text => (v, [.emit (.chatReceived source sender text)])
  | .exitResponse success => (v, [.emit (.exitConfirmed source success)])
  | message => if v.booth? = some source then v.onBoothMessage m message else (v, [])

def onIntent (v : Visitor) (tick : Nat) (i : Intent) : Visitor × List Action :=
  match i, v.phase with
  | .affirm, .connected booth .decision =>
    ({ v with phase := .connected booth .registration }, v.affirmActions booth)
  | .decline, .connected booth _ =>
    andThen (v, [.send booth (.userResponse false)]) (backToScanning tick)
  | .exit, .inUse booth _ =>
    andThen (v, [.send booth .exitRequest]) (endSession tick booth .exited)
  | .leaveQueue, .waiting booth _ _ =>
    andThen (v, [.send booth .queueLeave]) (backToScanning tick)
  | .chat text, .inUse booth _ => (v, [.send booth (.chat none text)])
  | .status, _ => (v, [.emit (.status (.visitor v.snapshot))])
  | _, _ => (v, [])

/-- Scan again when the interval has passed; leave a booth whose alert never came. How long the visitor may stay is
added up at every tick of a session, which is a fault if the word does not hold the sum. -/
def onTick (v : Visitor) (m : Moment) : Except Fault (Visitor × List Action) :=
  match v.phase with
  | .scanning =>
    if !v.scanOpen ∧ v.rules.scanInterval.toNat ≤ m.tick - v.lastScan then .ok (startScan m.tick v)
    else .ok (v, [])
  | .inUse booth start => do
    if (← v.rules.clientLimit) ≤ m.now.since start then
      return andThen (v, [.send booth .exitRequest]) (endSession m.tick booth .forcedExpiry)
    else return (v, [])
  | _ => .ok (v, [])

/-- The visitor's reaction to an input, or the fault in it. -/
def attempt (v : Visitor) (m : Moment) : Input → Except Fault (Visitor × List Action)
  | .start => .ok (startScan m.tick v)
  | .message source message rssi snr => .ok (v.onMessage m source message rssi snr)
  | .timer .selection => .ok (v.onSelectionTimeout m.tick)
  | .timer .retry => .ok (v.onRetryTimeout m.tick)
  | .intent i => .ok (v.onIntent m.tick i)
  | .tick => v.onTick m

/-- What becomes of the visitor at an input, and what it wants done. -/
def react (v : Visitor) (m : Moment) (i : Input) : Visitor × List Action := settle v (v.attempt m i)

end Visitor

end BoothFloor
