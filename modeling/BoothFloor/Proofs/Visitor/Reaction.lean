import BoothFloor.Proofs.Action
import BoothFloor.Proofs.Sightings
import BoothFloor.Visitor

/-!
# What a visitor does

Every reaction of a visitor is one of those listed in `Visitor.Reaction`, each with its condition,
the state that it leads to and the actions it asks for. Whatever holds of all of them holds of the
visitor; no proof about a visitor needs to look at its handlers a second time.
-/

namespace BoothFloor

namespace Visitor

/-- The visitor after it has dropped everything that concerns the present booth. -/
def freed (v : Visitor) (tick : Nat) : Visitor :=
  { v with
    phase := .scanning
    sightings := v.sightings.reset
    scanOpen := false
    lastScan := tick
    connectRetries := 0
    registerRetries := 0 }

/-- What dropping a booth asks for: both timers are stopped and the change of stage is reported. -/
def freedActions (v : Visitor) : List Action :=
  [.stopTimer .retry, .stopTimer .selection, .emit (.stateChanged v.stage .scanning)]

/-- The ways in which a visitor may react to an input at a moment. -/
inductive Reaction (v : Visitor) (m : Moment) : Input → Visitor × List Action → Prop
  /-- Nothing is done. -/
  | idle (i : Input) : Reaction v m i (v, [])
  /-- The first scan. -/
  | starts : Reaction v m .start (startScan m.tick v)
  /-- Another scan, once the interval has passed. -/
  | rescans (hphase : v.phase = .scanning) (hclosed : v.scanOpen = false)
      (hdue : v.rules.scanInterval.toNat ≤ m.tick - v.lastScan) : Reaction v m .tick (startScan m.tick v)
  /-- A booth is heard during a scan. -/
  | hears (source : NodeId) (s : BoothStatus) (rssi : Int16) (snr : Int8) (heard : Sightings)
      (hphase : v.phase = .scanning) (hopen : v.scanOpen = true) (hhost : v.rules.isHost s.booth = true)
      (hheard : v.sightings.record s rssi snr = (true, heard)) :
      Reaction v m (.message source (.boothAnnounce s) rssi snr)
        ({ v with sightings := if s.booth ∈ v.spent then heard.invalidate s.booth else heard },
          [.emit (.boothDiscovered s.booth rssi s)])
  /-- A scan ends without a booth to ask. -/
  | findsNone (hphase : v.phase = .scanning) (hopen : v.scanOpen = true)
      (hchoice : v.sightings.choice = none) :
      Reaction v m (.timer .selection)
        ({ v with scanOpen := false, lastScan := m.tick, sightings := v.sightings.reset },
          [.emit .noBoothFound])
  /-- A scan ends and a booth is asked for its introduction. -/
  | connects (booth : NodeId) (score : Int) (hphase : v.phase = .scanning) (hopen : v.scanOpen = true)
      (hchoice : v.sightings.choice = some booth) :
      Reaction v m (.timer .selection)
        ({ v with
            scanOpen := false
            lastScan := m.tick
            connectRetries := 0
            phase := .connected booth .boothInfo },
          .emit (.boothSelected booth score) :: v.connectActions booth ++
            [.emit (.stateChanged .scanning .connected)])
  /-- The introduction is asked for again. -/
  | reconnects (booth : NodeId) (hphase : v.phase = .connected booth .boothInfo)
      (hlimit : v.connectRetries < v.rules.connectRetryLimit.toNat) :
      Reaction v m (.timer .retry)
        ({ v with connectRetries := v.connectRetries + 1 }, v.connectActions booth)
  /-- The introduction was asked for often enough. -/
  | losesBooth (booth : NodeId) (hphase : v.phase = .connected booth .boothInfo)
      (hlimit : v.rules.connectRetryLimit.toNat ≤ v.connectRetries) :
      Reaction v m (.timer .retry)
        (v.freed m.tick, .emit (.retriesExhausted booth .connect) :: v.freedActions)
  /-- The booth introduces itself and is accepted at once. -/
  | accepts (booth : NodeId) (current capacity waiting : UInt8) (description : String) (rssi : Int16)
      (snr : Int8) (hphase : v.phase = .connected booth .boothInfo) (hauto : v.rules.autoAffirm = true) :
      Reaction v m (.message booth (.boothInfo current capacity waiting description) rssi snr)
        ({ v with registerRetries := 0, phase := .connected booth .registration },
          .stopTimer .retry :: .emit (.boothOffered booth current capacity waiting description false) ::
            v.affirmActions booth)
  /-- The booth introduces itself and the person at the console is asked. -/
  | consults (booth : NodeId) (current capacity waiting : UInt8) (description : String) (rssi : Int16)
      (snr : Int8) (hphase : v.phase = .connected booth .boothInfo) (hauto : v.rules.autoAffirm = false) :
      Reaction v m (.message booth (.boothInfo current capacity waiting description) rssi snr)
        ({ v with registerRetries := 0, phase := .connected booth .decision },
          [.stopTimer .retry, .emit (.boothOffered booth current capacity waiting description true)])
  /-- The person at the console accepts the booth. -/
  | affirms (booth : NodeId) (hphase : v.phase = .connected booth .decision) :
      Reaction v m (.intent .affirm)
        ({ v with phase := .connected booth .registration }, v.affirmActions booth)
  /-- The person at the console declines the booth. -/
  | declines (booth : NodeId) (awaiting : Awaiting) (hphase : v.phase = .connected booth awaiting) :
      Reaction v m (.intent .decline)
        (v.freed m.tick, .send booth (.userResponse false) :: v.freedActions)
  /-- The answer to a first registration is asked for again. -/
  | reaffirms (booth : NodeId) (hphase : v.phase = .connected booth .registration)
      (hlimit : v.registerRetries < v.rules.registerRetryLimit.toNat) :
      Reaction v m (.timer .retry)
        ({ v with registerRetries := v.registerRetries + 1 }, v.affirmActions booth)
  /-- The answer to a first registration was asked for often enough. -/
  | givesUp (booth : NodeId) (hphase : v.phase = .connected booth .registration)
      (hlimit : v.rules.registerRetryLimit.toNat ≤ v.registerRetries) :
      Reaction v m (.timer .retry)
        (v.freed m.tick, .emit (.retriesExhausted booth .register) :: v.freedActions)
  /-- An offered slot is claimed. -/
  | claims (booth : NodeId) (claiming : Bool) (place : Option Place) (rssi : Int16) (snr : Int8)
      (hphase : v.phase = .waiting booth claiming place) :
      Reaction v m (.message booth .queueReady rssi snr)
        ({ v with registerRetries := 0, phase := .waiting booth true place }, v.registerActions booth)
  /-- An offered slot is claimed again. -/
  | reclaims (booth : NodeId) (place : Option Place) (hphase : v.phase = .waiting booth true place)
      (hlimit : v.registerRetries < v.rules.registerRetryLimit.toNat) :
      Reaction v m (.timer .retry)
        ({ v with registerRetries := v.registerRetries + 1 }, v.registerActions booth)
  /-- An offered slot was claimed often enough; the queue is left. -/
  | abandons (booth : NodeId) (place : Option Place) (hphase : v.phase = .waiting booth true place)
      (hlimit : v.rules.registerRetryLimit.toNat ≤ v.registerRetries) :
      Reaction v m (.timer .retry)
        (v.freed m.tick,
          .send booth .queueLeave :: .emit (.retriesExhausted booth .register) :: v.freedActions)
  /-- The registration has succeeded. -/
  | enters (booth : NodeId) (reason : RegisterReason) (rssi : Int16) (snr : Int8)
      (hregistering : v.registering? = some booth) :
      Reaction v m (.message booth (.registerResponse true reason) rssi snr)
        ({ { v with visits := v.visits ++ [booth] }.markSpent booth with phase := .inUse booth m.now },
          [.stopTimer .retry, .emit (.sessionStarted booth), .emit (.stateChanged v.stage .inUse)])
  /-- The registration has led to a place in the queue. -/
  | queues (booth : NodeId) (rssi : Int16) (snr : Int8) (hregistering : v.registering? = some booth) :
      Reaction v m (.message booth (.registerResponse false .fullWaiting) rssi snr)
        ({ v with phase := .waiting booth false v.phase.place? },
          .stopTimer .retry ::
            if v.stage = .waiting then [] else [.emit (.stateChanged v.stage .waiting)])
  /-- The registration was refused for good. -/
  | refused (booth : NodeId) (rssi : Int16) (snr : Int8) (hregistering : v.registering? = some booth) :
      Reaction v m (.message booth (.registerResponse false .alreadyUsed) rssi snr)
        ((v.markSpent booth).freed m.tick,
          .stopTimer .retry :: .emit (.registrationRefused booth) :: v.freedActions)
  /-- The visitor learns its place in the queue. -/
  | placed (booth : NodeId) (message : Message) (position total : UInt8) (claiming : Bool)
      (place : Option Place) (rssi : Int16) (snr : Int8)
      (hmessage : message = .queueInfo position total ∨ message = .queueUpdate position total)
      (hphase : v.phase = .waiting booth claiming place) (hposition : ¬ (position = 0 ∨ total = 0)) :
      Reaction v m (.message booth message rssi snr)
        ({ v with phase := .waiting booth claiming (some ⟨position, total⟩) },
          [.emit (.queuePosition booth position total)])
  /-- The visitor learns that it was dropped from the queue. -/
  | dropped (booth : NodeId) (message : Message) (position total : UInt8) (claiming : Bool)
      (place : Option Place) (rssi : Int16) (snr : Int8)
      (hmessage : message = .queueInfo position total ∨ message = .queueUpdate position total)
      (hphase : v.phase = .waiting booth claiming place) (hposition : position = 0 ∨ total = 0) :
      Reaction v m (.message booth message rssi snr)
        (v.freed m.tick, .emit (.queueDropped booth) :: v.freedActions)
  /-- The person at the console leaves the queue. -/
  | leaves (booth : NodeId) (claiming : Bool) (place : Option Place)
      (hphase : v.phase = .waiting booth claiming place) :
      Reaction v m (.intent .leaveQueue) (v.freed m.tick, .send booth .queueLeave :: v.freedActions)
  /-- The booth ends the session. -/
  | timesOut (booth : NodeId) (start : Instant) (rssi : Int16) (snr : Int8)
      (hphase : v.phase = .inUse booth start) :
      Reaction v m (.message booth .timeoutAlert rssi snr)
        (v.freed m.tick, .emit (.sessionEnded booth .timedOut) :: v.freedActions)
  /-- The booth's alert never came; the visitor ends the session by itself. -/
  | expires (booth : NodeId) (start : Instant) (hphase : v.phase = .inUse booth start) (limit : Span)
      (hholds : v.rules.clientLimit = .ok limit) (hlimit : limit ≤ m.now.since start) :
      Reaction v m .tick
        (v.freed m.tick,
          .send booth .exitRequest :: .emit (.sessionEnded booth .forcedExpiry) :: v.freedActions)
  /-- The person at the console ends the session. -/
  | exits (booth : NodeId) (start : Instant) (hphase : v.phase = .inUse booth start) :
      Reaction v m (.intent .exit)
        (v.freed m.tick,
          .send booth .exitRequest :: .emit (.sessionEnded booth .exited) :: v.freedActions)
  /-- The person at the console talks to the others inside. -/
  | chats (booth : NodeId) (start : Instant) (text : String) (hphase : v.phase = .inUse booth start) :
      Reaction v m (.intent (.chat text)) (v, [.send booth (.chat none text)])
  /-- The person at the console asks how things are. -/
  | answers : Reaction v m (.intent .status) (v, [.emit (.status (.visitor v.snapshot))])
  /-- An announcement of a person at a booth is shown. -/
  | showsText (source : NodeId) (text : String) (rssi : Int16) (snr : Int8) :
      Reaction v m (.message source (.adminMessage text) rssi snr) (v, [.emit (.adminMessage source text)])
  /-- Chat is shown. -/
  | showsChat (source : NodeId) (sender : Option NodeId) (text : String) (rssi : Int16) (snr : Int8) :
      Reaction v m (.message source (.chat sender text) rssi snr)
        (v, [.emit (.chatReceived source sender text)])
  /-- The answer to an exit is shown. -/
  | showsExit (source : NodeId) (success : Bool) (rssi : Int16) (snr : Int8) :
      Reaction v m (.message source (.exitResponse success) rssi snr)
        (v, [.emit (.exitConfirmed source success)])

/-- Opening a scan asks every host to announce itself. -/
@[simp]
theorem startScan_sent (tick : Nat) (v : Visitor) :
    Action.sent (startScan tick v).2 = v.rules.hosts.ids.map (·, .boothScan) := by
  rw [startScan, Action.sent_append, Action.sent_map_send]
  exact List.append_nil _

/-- Asking for an introduction is one message. -/
@[simp]
theorem connectActions_sent (v : Visitor) (booth : NodeId) :
    Action.sent (v.connectActions booth) = [(booth, .connectRequest)] := rfl

/-- Asking for admission is one message. -/
@[simp]
theorem registerActions_sent (v : Visitor) (booth : NodeId) :
    Action.sent (v.registerActions booth) = [(booth, .registerRequest)] := rfl

/-- Accepting a booth is two messages. -/
@[simp]
theorem affirmActions_sent (v : Visitor) (booth : NodeId) :
    Action.sent (v.affirmActions booth) = [(booth, .userResponse true), (booth, .registerRequest)] := rfl

/-- Dropping a booth is done in silence. -/
@[simp]
theorem freedActions_sent (v : Visitor) : Action.sent v.freedActions = [] := rfl

/-- Opening a scan is reported. -/
@[simp]
theorem startScan_emitted (tick : Nat) (v : Visitor) : Action.emitted (startScan tick v).2 = [.scanStarted] := by
  rw [startScan, Action.emitted_append, Action.emitted_map_send]
  rfl

/-- Asking for an introduction is not reported. -/
@[simp]
theorem connectActions_emitted (v : Visitor) (booth : NodeId) : Action.emitted (v.connectActions booth) = [] := rfl

/-- Asking for admission is not reported. -/
@[simp]
theorem registerActions_emitted (v : Visitor) (booth : NodeId) : Action.emitted (v.registerActions booth) = [] := rfl

/-- Accepting a booth is not reported. -/
@[simp]
theorem affirmActions_emitted (v : Visitor) (booth : NodeId) : Action.emitted (v.affirmActions booth) = [] := rfl

/-- Dropping a booth is reported as a change of stage. -/
@[simp]
theorem freedActions_emitted (v : Visitor) :
    Action.emitted v.freedActions = [.stateChanged v.stage .scanning] := rfl

variable {v : Visitor} {m : Moment}

/-- A visitor with a booth is not scanning. -/
theorem stage_ne_scanning {booth : NodeId} (h : v.booth? = some booth) : v.stage ≠ .scanning := by
  intro hstage
  unfold booth? Phase.booth? at h
  unfold stage Phase.stage at hstage
  cases hphase : v.phase <;> simp [hphase] at h hstage

/-- The booth to which a visitor registers is the one that it deals with. -/
theorem booth?_of_registering? {booth : NodeId} (h : v.registering? = some booth) :
    v.booth? = some booth := by
  unfold registering? at h
  unfold booth? Phase.booth?
  split at h <;> simp_all

/-- A visitor that registers is not inside yet. -/
theorem stage_ne_inUse {booth : NodeId} (h : v.registering? = some booth) : v.stage ≠ .inUse := by
  intro hstage
  unfold registering? at h
  unfold stage Phase.stage at hstage
  cases hphase : v.phase <;> simp [hphase] at h hstage

/-- Dropping a booth from any stage but scanning. -/
theorem backToScanning_eq (tick : Nat) (h : v.stage ≠ .scanning) :
    backToScanning tick v = (v.freed tick, v.freedActions) := by
  change (v.freed tick, [Action.stopTimer .retry, .stopTimer .selection] ++
    if v.stage = .scanning then [] else [Action.emit (.stateChanged v.stage .scanning)]) = _
  rw [if_neg h]
  rfl

/-- Noting a booth as spent does not change the stage. -/
theorem stage_markSpent (v : Visitor) (booth : NodeId) : (v.markSpent booth).stage = v.stage := by
  unfold markSpent
  split <;> rfl

/-- The end of a scan is one of the reactions. -/
theorem onSelectionTimeout_reaction (v : Visitor) (m : Moment) :
    Reaction v m (.timer .selection) (v.onSelectionTimeout m.tick) := by
  unfold onSelectionTimeout
  split
  · next hopen =>
    obtain ⟨hstage, hopen⟩ := hopen
    have hphase : v.phase = .scanning := by
      unfold stage Phase.stage at hstage
      cases hv : v.phase <;> simp_all
    dsimp only
    split
    · next hchoice => exact .findsNone hphase hopen hchoice
    · next booth hchoice =>
      have hconnects := Reaction.connects (v := v) (m := m) booth
        (((v.sightings.get? booth).map (·.score)).getD 0) hphase hopen hchoice
      simp only [andThen, moveTo, stage, hphase, Phase.stage, reduceCtorEq, if_false]
      exact hconnects
  · exact .idle _

/-- An overdue answer is dealt with in one of these ways. -/
theorem onRetryTimeout_reaction (v : Visitor) (m : Moment) :
    Reaction v m (.timer .retry) (v.onRetryTimeout m.tick) := by
  unfold onRetryTimeout
  split
  · next booth hphase =>
    have hstage : v.stage ≠ .scanning := stage_ne_scanning (by rw [booth?, hphase]; rfl)
    split
    · next hlimit => exact .reconnects booth hphase hlimit
    · next hlimit =>
      rw [giveUp, andThen, backToScanning_eq m.tick hstage]
      exact .losesBooth booth hphase (Nat.le_of_not_lt hlimit)
  · next booth hphase =>
    have hstage : v.stage ≠ .scanning := stage_ne_scanning (by rw [booth?, hphase]; rfl)
    split
    · next hlimit => exact .reaffirms booth hphase hlimit
    · next hlimit =>
      rw [giveUp, andThen, backToScanning_eq m.tick hstage]
      exact .givesUp booth hphase (Nat.le_of_not_lt hlimit)
  · next booth place hphase =>
    have hstage : v.stage ≠ .scanning := stage_ne_scanning (by rw [booth?, hphase]; rfl)
    split
    · next hlimit => exact .reclaims booth place hphase hlimit
    · next hlimit =>
      simp only [giveUp, andThen, backToScanning_eq m.tick hstage]
      exact .abandons booth place hphase (Nat.le_of_not_lt hlimit)
  · exact .idle _

/-- The answer to a registration is dealt with in one of these ways. -/
theorem onRegisterResponse_reaction {booth : NodeId} (hbooth : v.booth? = some booth) (success : Bool)
    (reason : RegisterReason) (rssi : Int16) (snr : Int8) :
    Reaction v m (.message booth (.registerResponse success reason) rssi snr)
      (v.onRegisterResponse m success reason) := by
  have hscanning := stage_ne_scanning hbooth
  unfold onRegisterResponse
  split
  · exact .idle _
  · next other hregistering =>
    obtain rfl : other = booth :=
      Option.some.inj ((booth?_of_registering? hregistering).symm.trans hbooth)
    split
    · have hstage := stage_markSpent { v with visits := v.visits ++ [other] } other
      change _ = v.stage at hstage
      simp only [andThen, moveTo, hstage]
      rw [if_neg (by exact stage_ne_inUse hregistering)]
      exact .enters other reason rssi snr hregistering
    · exact .idle _
    · exact .queues other rssi snr hregistering
    · have hstage := stage_markSpent v other
      rw [andThen, backToScanning_eq m.tick (by rw [hstage]; exact hscanning), freedActions, hstage]
      exact .refused other rssi snr hregistering

/-- News of the place in the queue is dealt with in one of these ways. -/
theorem onQueuePosition_reaction {booth : NodeId} (hbooth : v.booth? = some booth) {message : Message}
    {position total : UInt8}
    (hmessage : message = .queueInfo position total ∨ message = .queueUpdate position total)
    (rssi : Int16) (snr : Int8) :
    Reaction v m (.message booth message rssi snr) (v.onQueuePosition m.tick position total) := by
  unfold onQueuePosition
  split
  · next other claiming place hphase =>
    obtain rfl : other = booth := by
      rw [booth?, hphase] at hbooth
      exact Option.some.inj hbooth
    split
    · next hposition =>
      rw [andThen, backToScanning_eq m.tick (stage_ne_scanning hbooth)]
      exact .dropped other message position total claiming place rssi snr hmessage hphase hposition
    · next hposition =>
      exact .placed other message position total claiming place rssi snr hmessage hphase hposition
  · exact .idle _

/-- A message from the visitor's own booth is dealt with in one of these ways. -/
theorem onBoothMessage_reaction {source : NodeId} (hsource : v.booth? = some source) (message : Message)
    (rssi : Int16) (snr : Int8) :
    Reaction v m (.message source message rssi snr) (v.onBoothMessage m message) := by
  have hstage := stage_ne_scanning hsource
  have hown {booth : NodeId} (hbooth : v.phase.booth? = some booth) : booth = source :=
    Option.some.inj (hbooth.symm.trans hsource)
  cases message with
  | boothInfo current capacity waiting description =>
    change Reaction v m _ (v.onBoothInfo current capacity waiting description)
    unfold onBoothInfo
    split
    · next booth hphase =>
      obtain rfl := hown (by rw [hphase]; rfl)
      dsimp only
      split
      · next hauto =>
        rw [hauto]
        exact .accepts booth current capacity waiting description rssi snr hphase hauto
      · next hauto =>
        rw [Bool.not_eq_true] at hauto
        rw [hauto]
        exact .consults booth current capacity waiting description rssi snr hphase hauto
    · exact .idle _
  | registerResponse success reason => exact onRegisterResponse_reaction hsource success reason rssi snr
  | queueInfo position total => exact onQueuePosition_reaction hsource (.inl rfl) rssi snr
  | queueUpdate position total => exact onQueuePosition_reaction hsource (.inr rfl) rssi snr
  | queueReady =>
    change Reaction v m _ v.onQueueReady
    unfold onQueueReady
    split
    · next booth claiming place hphase =>
      obtain rfl := hown (by rw [hphase]; rfl)
      exact .claims booth claiming place rssi snr hphase
    · exact .idle _
  | timeoutAlert =>
    change Reaction v m _ (v.onTimeoutAlert m.tick)
    unfold onTimeoutAlert
    split
    · next booth start hphase =>
      obtain rfl := hown (by rw [hphase]; rfl)
      rw [endSession, andThen, backToScanning_eq m.tick hstage]
      exact .timesOut booth start rssi snr hphase
    · exact .idle _
  | _ => exact .idle _

/-- A message is dealt with in one of these ways. -/
theorem onMessage_reaction (v : Visitor) (m : Moment) (source : NodeId) (message : Message) (rssi : Int16)
    (snr : Int8) :
    Reaction v m (.message source message rssi snr) (v.onMessage m source message rssi snr) := by
  unfold onMessage
  split
  · next s =>
    unfold onAnnounce
    split
    · next hopen =>
      obtain ⟨hstage, hopen, hhost⟩ := hopen
      have hphase : v.phase = .scanning := by
        unfold stage Phase.stage at hstage
        cases hv : v.phase <;> simp_all
      split
      · next heard hheard => exact .hears source s rssi snr heard hphase hopen hhost hheard
      · next t hfull =>
        rw [Sightings.eq_of_refused hfull]
        exact .idle _
    · exact .idle _
  · next text => exact .showsText source text rssi snr
  · next sender text => exact .showsChat source sender text rssi snr
  · next success => exact .showsExit source success rssi snr
  · split
    · next hsource => exact onBoothMessage_reaction hsource message rssi snr
    · exact .idle _

/-- An intent is dealt with in one of these ways. -/
theorem onIntent_reaction (v : Visitor) (m : Moment) (i : Intent) :
    Reaction v m (.intent i) (v.onIntent m.tick i) := by
  unfold onIntent
  split
  · next booth hphase => exact .affirms booth hphase
  · next booth awaiting hphase =>
    rw [andThen, backToScanning_eq m.tick (stage_ne_scanning (by rw [booth?, hphase]; rfl))]
    exact .declines booth awaiting hphase
  · next booth start hphase =>
    have hstage : v.stage ≠ .scanning := stage_ne_scanning (by rw [booth?, hphase]; rfl)
    simp only [endSession, andThen, backToScanning_eq m.tick hstage]
    exact .exits booth start hphase
  · next booth claiming place hphase =>
    rw [andThen, backToScanning_eq m.tick (stage_ne_scanning (by rw [booth?, hphase]; rfl))]
    exact .leaves booth claiming place hphase
  · next text booth start hphase => exact .chats booth start text hphase
  · exact .answers
  · exact .idle _

/-- A tick is dealt with in one of these ways; one that goes astray leaves the visitor as it was. -/
theorem onTick_reaction (v : Visitor) (m : Moment) : Reaction v m .tick (settle v (v.onTick m)) := by
  unfold onTick
  split
  · next hphase =>
    split
    · next hdue => exact .rescans hphase (by simpa using hdue.1) hdue.2
    · exact .idle _
  · next booth start hphase =>
    cases hholds : v.rules.clientLimit with
    | error fault => exact .idle _
    | ok limit =>
      rw [Checked.ok_bind]
      split
      · next hlimit =>
        have hstage : v.stage ≠ .scanning := stage_ne_scanning (by rw [booth?, hphase]; rfl)
        simp only [endSession, andThen, backToScanning_eq m.tick hstage]
        exact .expires booth start hphase limit hholds hlimit
      · exact .idle _
  · exact .idle _

/-- Every reaction is one of those listed. -/
theorem react_reaction (v : Visitor) (m : Moment) (i : Input) : Reaction v m i (v.react m i) := by
  cases i with
  | start => exact .starts
  | message source message rssi snr => exact v.onMessage_reaction m source message rssi snr
  | timer kind =>
    cases kind with
    | selection => exact v.onSelectionTimeout_reaction m
    | retry => exact v.onRetryTimeout_reaction m
  | intent i => exact v.onIntent_reaction m i
  | tick => exact v.onTick_reaction m

end Visitor

end BoothFloor
