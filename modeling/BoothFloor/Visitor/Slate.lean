import BoothFloor.Visitor

/-!
# The slate of a visitor

A visitor as it is kept: every part of it stands in a field of its own, and each field is written and wiped by itself.
Nothing in the type ties the fields together, so a slate can show a session without a booth, or an answer that is
awaited while the visitor scans. Which slates come about is settled by the operations alone.
-/

namespace BoothFloor

/-- A visitor whose stage, booth, session, place and awaited answer are kept apart. -/
structure Slate where
  id : NodeId
  rules : Rules
  stage : Stage := .scanning
  awaiting : Option Awaiting := none
  sightings : Sightings
  scanOpen : Bool := false
  lastScan : Nat := 0
  booth : Option NodeId := none
  connectRetries : Nat := 0
  registerRetries : Nat := 0
  sessionStart : Option Instant := none
  /-- The place in the queue and the length of the queue; zeros say that none is known. -/
  position : UInt8 := 0
  total : UInt8 := 0
  visits : List NodeId := []
  spent : List NodeId := []
  deriving DecidableEq, Repr

namespace Slate

/-- The slate of the visitor with id `id` before its first scan. -/
def ofRules (id : NodeId) (r : Rules) : Slate where
  id := id
  rules := r
  sightings := { limit := r.hosts.count }

/-- The slate that shows a visitor. -/
def ofVisitor (v : Visitor) : Slate where
  id := v.id
  rules := v.rules
  stage := v.stage
  awaiting := v.phase.awaiting?
  sightings := v.sightings
  scanOpen := v.scanOpen
  lastScan := v.lastScan
  booth := v.booth?
  connectRetries := v.connectRetries
  registerRetries := v.registerRetries
  sessionStart := v.phase.start?
  position := (v.phase.place?.map (·.position)).getD 0
  total := (v.phase.place?.map (·.total)).getD 0
  visits := v.visits
  spent := v.spent

def snapshot (s : Slate) : VisitorSnapshot where
  id := s.id
  stage := s.stage
  booth := s.booth
  position := s.position
  total := s.total
  sessionStart := s.sessionStart
  visits := s.visits

/-- Exclude a booth from later scans. -/
def markSpent (s : Slate) (booth : NodeId) : Slate :=
  if booth ∈ s.spent then s else { s with spent := s.spent ++ [booth] }

/-- Move to another stage and report it. A move to the present stage is none. -/
def transition (next : Stage) (s : Slate) : Slate × List Action :=
  if s.stage = next then (s, []) else ({ s with stage := next }, [.emit (.stateChanged s.stage next)])

/-- Wipe everything that concerns the present booth. -/
def returnToScanning (tick : Nat) (s : Slate) : Slate × List Action :=
  andThen
    ({ s with
        sightings := s.sightings.reset
        scanOpen := false
        lastScan := tick
        awaiting := none
        booth := none
        connectRetries := 0
        registerRetries := 0
        sessionStart := none
        position := 0
        total := 0 },
      [.stopTimer .retry, .stopTimer .selection])
    (transition .scanning)

/-- Ask every host to announce itself and open the scan window. -/
def startScan (tick : Nat) (s : Slate) : Slate × List Action :=
  ({ s with sightings := s.sightings.reset, scanOpen := true, lastScan := tick },
    s.rules.hosts.ids.map (fun h => .send h .boothScan) ++
      [.startTimer .selection s.rules.selectionDwell, .emit .scanStarted])

/-- A message to the booth, if the slate shows one. -/
def sendToBooth (s : Slate) (message : Message) : List Action :=
  match s.booth with
  | some booth => [.send booth message]
  | none => []

def sendConnect (s : Slate) : Slate × List Action :=
  ({ s with awaiting := some .boothInfo },
    s.sendToBooth .connectRequest ++ [.startTimer .retry s.rules.connectTimeout])

def sendRegister (s : Slate) : Slate × List Action :=
  ({ s with awaiting := some .registration },
    s.sendToBooth .registerRequest ++ [.startTimer .retry s.rules.registerTimeout])

/-- Accept the booth and ask it for admission. -/
def sendAffirmAndRegister (s : Slate) : Slate × List Action :=
  andThen (s, s.sendToBooth (.userResponse true)) sendRegister

/-- The booth that is named in reports; without one it is the broadcast id. -/
def boothNamed (s : Slate) : NodeId := s.booth.getD .broadcast

def giveUp (tick : Nat) (stage : RetryStage) (s : Slate) : Slate × List Action :=
  andThen (s, [.emit (.retriesExhausted s.boothNamed stage)]) (returnToScanning tick)

/-- Leave the booth. A session without a booth ends unreported. -/
def endSession (tick : Nat) (reason : EndReason) (s : Slate) : Slate × List Action :=
  match s.booth with
  | some booth => andThen (s, [.emit (.sessionEnded booth reason)]) (returnToScanning tick)
  | none => s.returnToScanning tick

/-- The scan window closes: ask the best booth heard, if any. -/
def onSelectionTimeout (tick : Nat) (s : Slate) : Slate × List Action :=
  if s.stage ≠ .scanning ∨ s.scanOpen = false then (s, [])
  else
    let s := { s with scanOpen := false, lastScan := tick }
    match s.sightings.choice with
    | none => ({ s with sightings := s.sightings.reset }, [.emit .noBoothFound])
    | some booth =>
      let score := ((s.sightings.get? booth).map (·.score)).getD 0
      let selected := { s with booth := some booth, connectRetries := 0 }
      andThen (andThen (selected, [.emit (.boothSelected booth score)]) sendConnect) (transition .connected)

/-- An answer is overdue: ask again, or give up once the ceiling is reached. -/
def onRetryTimeout (tick : Nat) (s : Slate) : Slate × List Action :=
  match s.stage, s.awaiting with
  | .connected, some .boothInfo =>
    if s.connectRetries < s.rules.connectRetryLimit.toNat then
      { s with connectRetries := s.connectRetries + 1 }.sendConnect
    else s.giveUp tick .connect
  | .connected, some .registration =>
    if s.registerRetries < s.rules.registerRetryLimit.toNat then
      { s with registerRetries := s.registerRetries + 1 }.sendAffirmAndRegister
    else s.giveUp tick .register
  | .waiting, some .registration =>
    if s.registerRetries < s.rules.registerRetryLimit.toNat then
      { s with registerRetries := s.registerRetries + 1 }.sendRegister
    else andThen (s, s.sendToBooth .queueLeave) (giveUp tick .register)
  | _, _ => (s, [])

/-- An announcement counts only while the scan window is open and if it speaks of a host. -/
def onAnnounce (status : BoothStatus) (rssi : Int16) (snr : Int8) (s : Slate) : Slate × List Action :=
  if s.stage ≠ .scanning ∨ s.scanOpen = false ∨ s.rules.isHost status.booth = false then (s, [])
  else
    match s.sightings.record status rssi snr with
    | (true, heard) =>
      ({ s with sightings := if status.booth ∈ s.spent then heard.invalidate status.booth else heard },
        [.emit (.boothDiscovered status.booth rssi status)])
    | (false, heard) => ({ s with sightings := heard }, [])

/-- The booth introduces itself: accept it at once, or leave that to the person at the console. -/
def onBoothInfo (current capacity waiting : UInt8) (description : String) (s : Slate) : Slate × List Action :=
  if s.stage ≠ .connected ∨ s.awaiting ≠ some .boothInfo then (s, [])
  else
    let offer := .boothOffered s.boothNamed current capacity waiting description (!s.rules.autoAffirm)
    let told : List Action := [.stopTimer .retry, .emit offer]
    let s := { s with registerRetries := 0 }
    if s.rules.autoAffirm then andThen (s, told) sendAffirmAndRegister
    else ({ s with awaiting := some .decision }, told)

/-- The answer to a registration: a session, a place in the queue or a refusal. An answer that contradicts itself is
ignored. -/
def onRegisterResponse (m : Moment) (success : Bool) (reason : RegisterReason) (s : Slate) : Slate × List Action :=
  if ¬ (s.awaiting = some .registration ∧ (s.stage = .connected ∨ s.stage = .waiting)) then (s, [])
  else if success = false ∧ reason = .success then (s, [])
  else
    let booth := s.boothNamed
    let s := { s with awaiting := none }
    if success then
      let entered :=
        { s with sessionStart := some m.now, visits := s.visits ++ [booth], position := 0, total := 0 }
      andThen (entered.markSpent booth, [.stopTimer .retry, .emit (.sessionStarted booth)]) (transition .inUse)
    else
      match reason with
      | .fullWaiting => andThen (s, [.stopTimer .retry]) (transition .waiting)
      | .alreadyUsed | .success =>
        andThen (s.markSpent booth, [.stopTimer .retry, .emit (.registrationRefused booth)])
          (returnToScanning m.tick)

/-- News of the place in the queue; a zero says that the visitor was dropped. -/
def onQueuePosition (tick : Nat) (position total : UInt8) (s : Slate) : Slate × List Action :=
  if s.stage ≠ .waiting then (s, [])
  else if position = 0 ∨ total = 0 then
    andThen (s, [.emit (.queueDropped s.boothNamed)]) (returnToScanning tick)
  else ({ s with position := position, total := total }, [.emit (.queuePosition s.boothNamed position total)])

/-- A slot is offered: claim it. -/
def onQueueReady (s : Slate) : Slate × List Action :=
  if s.stage ≠ .waiting then (s, []) else { s with registerRetries := 0 }.sendRegister

def onTimeoutAlert (tick : Nat) (s : Slate) : Slate × List Action :=
  if s.stage = .inUse then s.endSession tick .timedOut else (s, [])

/-- A message from the booth that the visitor deals with. -/
def onBoothMessage (m : Moment) (message : Message) (s : Slate) : Slate × List Action :=
  match message with
  | .boothInfo current capacity waiting description => s.onBoothInfo current capacity waiting description
  | .registerResponse success reason => s.onRegisterResponse m success reason
  | .queueInfo position total | .queueUpdate position total => s.onQueuePosition m.tick position total
  | .queueReady => s.onQueueReady
  | .timeoutAlert => s.onTimeoutAlert m.tick
  | _ => (s, [])

/-- A message from another node. Announcements, chat and confirmations of an exit are taken from anyone, all else only
from the booth on the slate. -/
def onMessage (m : Moment) (source : NodeId) (message : Message) (rssi : Int16) (snr : Int8) (s : Slate) :
    Slate × List Action :=
  match message with
  | .boothAnnounce status => s.onAnnounce status rssi snr
  | .adminMessage text => (s, [.emit (.adminMessage source text)])
  | .chat sender text => (s, [.emit (.chatReceived source sender text)])
  | .exitResponse success => (s, [.emit (.exitConfirmed source success)])
  | message => if s.booth = some source then s.onBoothMessage m message else (s, [])

def onIntent (tick : Nat) (i : Intent) (s : Slate) : Slate × List Action :=
  match i, s.stage with
  | .affirm, .connected => if s.awaiting = some .decision then s.sendAffirmAndRegister else (s, [])
  | .decline, .connected => andThen (s, s.sendToBooth (.userResponse false)) (returnToScanning tick)
  | .exit, .inUse => andThen (s, s.sendToBooth .exitRequest) (endSession tick .exited)
  | .leaveQueue, .waiting => andThen (s, s.sendToBooth .queueLeave) (returnToScanning tick)
  | .chat text, .inUse => (s, s.sendToBooth (.chat none text))
  | .status, _ => (s, [.emit (.status (.visitor s.snapshot))])
  | _, _ => (s, [])

/-- Scan again when the interval has passed; leave a booth whose alert never came. A session whose start is not on the
slate does not run out. -/
def onTick (m : Moment) (s : Slate) : Except Fault (Slate × List Action) :=
  match s.stage with
  | .scanning =>
    let due := s.rules.scanInterval.toNat ≤ m.tick - s.lastScan
    if !s.scanOpen ∧ due then .ok (s.startScan m.tick) else .ok (s, [])
  | .inUse =>
    match s.sessionStart with
    | none => .ok (s, [])
    | some start => do
      if (← s.rules.clientLimit) ≤ m.now.since start then
        return andThen (s, s.sendToBooth .exitRequest) (endSession m.tick .forcedExpiry)
      else return (s, [])
  | .connected | .waiting => .ok (s, [])

/-- What an input makes of the slate, or the fault in it. -/
def attempt (s : Slate) (m : Moment) : Input → Except Fault (Slate × List Action)
  | .start => .ok (s.startScan m.tick)
  | .message source message rssi snr => .ok (s.onMessage m source message rssi snr)
  | .timer .selection => .ok (s.onSelectionTimeout m.tick)
  | .timer .retry => .ok (s.onRetryTimeout m.tick)
  | .intent i => .ok (s.onIntent m.tick i)
  | .tick => s.onTick m

/-- What becomes of the slate at an input, and what the visitor wants done. -/
def react (s : Slate) (m : Moment) (i : Input) : Slate × List Action := settle s (s.attempt m i)

end Slate

end BoothFloor
