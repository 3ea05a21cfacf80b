import BoothFloor.Proofs.Visitor.Visits
import BoothFloor.Visitor.Slate

/-!
# A slate shows a visitor

The handlers of a slate write its fields one by one, those of a visitor move it from phase to phase. Handler by handler
they do the same: from the slate that shows a visitor they come to the slate that shows what becomes of the visitor,
with the same actions in the same order. What is wiped on the way back to scanning is therefore wiped completely, and
whatever holds along the runs of a visitor can be read off its slate.
-/

namespace BoothFloor

namespace Slate

/-- A run of a slate. -/
def run (s : Slate) (events : List (Moment × Input)) : Slate × List Action := runWith react s events

/-- A visitor and its actions, as they are shown on a slate. -/
def ofOutcome (outcome : Visitor × List Action) : Slate × List Action := (ofVisitor outcome.1, outcome.2)

/-- Handlers that agree may follow handlers that agree. -/
theorem ofOutcome_andThen (first : Visitor × List Action) {next : Visitor → Visitor × List Action}
    {next' : Slate → Slate × List Action} (h : ∀ v, next' (ofVisitor v) = ofOutcome (next v)) :
    andThen (ofOutcome first) next' = ofOutcome (andThen first next) := by
  simp only [andThen, ofOutcome, h]

/-- The first slate shows the first visitor. -/
theorem ofVisitor_ofRules (id : NodeId) (r : Rules) : ofVisitor (.ofRules id r) = ofRules id r := rfl

/-- A scan is opened on the slate as by the visitor. -/
theorem startScan_ofVisitor (tick : Nat) (v : Visitor) :
    (ofVisitor v).startScan tick = ofOutcome (v.startScan tick) := rfl

/-- Excluding a booth changes the list of excluded booths only. -/
theorem markSpent_eq (s : Slate) (booth : NodeId) :
    s.markSpent booth = { s with spent := if booth ∈ s.spent then s.spent else s.spent ++ [booth] } := by
  rw [markSpent]
  split <;> rfl

/-- Wiping every field that concerns the booth is what dropping the phase comes to. -/
theorem returnToScanning_ofVisitor (tick : Nat) (v : Visitor) :
    (ofVisitor v).returnToScanning tick = ofOutcome (v.backToScanning tick) := by
  obtain ⟨id, rules, phase⟩ := v
  -- a field that was left as it is would still show the phase that is gone
  cases phase <;> rfl

/-- The end of a scan comes to the same: the booth that is chosen, the answer that is awaited and the stage are written
one after another where the visitor enters a phase. -/
theorem onSelectionTimeout_ofVisitor (tick : Nat) (v : Visitor) :
    (ofVisitor v).onSelectionTimeout tick = ofOutcome (v.onSelectionTimeout tick) := by
  obtain ⟨id, rules, phase, sightings, scanOpen⟩ := v
  cases phase with
  | scanning =>
    cases scanOpen with
    | false => rfl
    | true =>
      simp only [onSelectionTimeout, Visitor.onSelectionTimeout, ofVisitor]
      cases sightings.choice <;> rfl
  | _ => rfl

/-- An overdue answer comes to the same: the stage and the awaited answer together tell the phase. -/
theorem onRetryTimeout_ofVisitor (tick : Nat) (v : Visitor) :
    (ofVisitor v).onRetryTimeout tick = ofOutcome (v.onRetryTimeout tick) := by
  obtain ⟨id, rules, phase⟩ := v
  cases phase with
  | scanning | inUse => rfl
  | connected booth awaiting =>
    cases awaiting with
    | decision => rfl
    | boothInfo | registration =>
      simp only [Visitor.onRetryTimeout, apply_ite ofOutcome]
      rfl
  | waiting booth claiming place =>
    cases claiming with
    | false => rfl
    | true =>
      simp only [Visitor.onRetryTimeout, apply_ite ofOutcome]
      rfl

/-- An announcement comes to the same, since the slate keeps the sightings as the visitor does. -/
theorem onAnnounce_ofVisitor (status : BoothStatus) (rssi : Int16) (snr : Int8) (v : Visitor) :
    (ofVisitor v).onAnnounce status rssi snr = ofOutcome (v.onAnnounce status rssi snr) := by
  obtain ⟨id, rules, phase, sightings, scanOpen⟩ := v
  cases phase with
  | scanning =>
    cases scanOpen with
    | false => rfl
    | true =>
      cases hhost : rules.isHost status.booth with
      | false => simp [onAnnounce, Visitor.onAnnounce, ofVisitor, ofOutcome, hhost]
      | true =>
        simp only [onAnnounce, Visitor.onAnnounce, ofVisitor, hhost]
        rcases sightings.record status rssi snr with ⟨_ | _, heard⟩ <;> rfl
  | _ => rfl

/-- An introduction comes to the same, whether it is accepted at once or left to the person at the console. -/
theorem onBoothInfo_ofVisitor (current capacity waiting : UInt8) (description : String) (v : Visitor) :
    (ofVisitor v).onBoothInfo current capacity waiting description =
      ofOutcome (v.onBoothInfo current capacity waiting description) := by
  obtain ⟨id, rules, phase⟩ := v
  cases phase with
  | connected booth awaiting =>
    cases awaiting with
    | boothInfo =>
      simp only [Visitor.onBoothInfo, apply_ite ofOutcome]
      rfl
    | _ => rfl
  | _ => rfl

/-- The answer to a registration comes to the same: a visitor that enters has its place wiped, one that goes on waiting
keeps it. -/
theorem onRegisterResponse_ofVisitor (m : Moment) (success : Bool) (reason : RegisterReason) (v : Visitor) :
    (ofVisitor v).onRegisterResponse m success reason = ofOutcome (v.onRegisterResponse m success reason) := by
  obtain ⟨id, rules, phase⟩ := v
  -- the list of excluded booths is written alike, whether the booth is on it or not
  simp only [onRegisterResponse, Visitor.onRegisterResponse, markSpent_eq, Visitor.markSpent_eq]
  cases phase with
  | connected booth awaiting =>
    cases awaiting with
    | registration => cases success <;> cases reason <;> rfl
    | _ => rfl
  | waiting booth claiming place =>
    cases claiming with
    | false => rfl
    | true => cases success <;> cases reason <;> rfl
  | _ => rfl

/-- News of the place in the queue comes to the same, also if it says that there is none. -/
theorem onQueuePosition_ofVisitor (tick : Nat) (position total : UInt8) (v : Visitor) :
    (ofVisitor v).onQueuePosition tick position total = ofOutcome (v.onQueuePosition tick position total) := by
  obtain ⟨id, rules, phase⟩ := v
  cases phase with
  | waiting booth claiming place =>
    simp only [Visitor.onQueuePosition, apply_ite ofOutcome]
    cases claiming <;> rfl
  | _ => rfl

/-- The offer of a slot comes to the same: the claim leaves the place on the slate. -/
theorem onQueueReady_ofVisitor (v : Visitor) : (ofVisitor v).onQueueReady = ofOutcome v.onQueueReady := by
  obtain ⟨id, rules, phase⟩ := v
  cases phase <;> rfl

/-- An alert comes to the same: a session has a booth, so its end is reported. -/
theorem onTimeoutAlert_ofVisitor (tick : Nat) (v : Visitor) :
    (ofVisitor v).onTimeoutAlert tick = ofOutcome (v.onTimeoutAlert tick) := by
  obtain ⟨id, rules, phase⟩ := v
  cases phase with
  | inUse booth start => exact ofOutcome_andThen (_, _) (returnToScanning_ofVisitor tick)
  | _ => rfl

/-- A message from the booth comes to the same. -/
theorem onBoothMessage_ofVisitor (m : Moment) (message : Message) (v : Visitor) :
    (ofVisitor v).onBoothMessage m message = ofOutcome (v.onBoothMessage m message) := by
  cases message with
  | boothInfo => exact onBoothInfo_ofVisitor ..
  | registerResponse => exact onRegisterResponse_ofVisitor ..
  | queueInfo | queueUpdate => exact onQueuePosition_ofVisitor ..
  | queueReady => exact onQueueReady_ofVisitor v
  | timeoutAlert => exact onTimeoutAlert_ofVisitor m.tick v
  | _ => rfl

/-- A message from anyone comes to the same. -/
theorem onMessage_ofVisitor (m : Moment) (source : NodeId) (message : Message) (rssi : Int16) (snr : Int8)
    (v : Visitor) :
    (ofVisitor v).onMessage m source message rssi snr = ofOutcome (v.onMessage m source message rssi snr) := by
  cases message with
  | boothAnnounce status => exact onAnnounce_ofVisitor status rssi snr v
  | adminMessage | chat | exitResponse => rfl
  | _ =>
    simp only [onMessage, Visitor.onMessage, apply_ite ofOutcome, onBoothMessage_ofVisitor]
    rfl

/-- An intent of the person at the console comes to the same. -/
theorem onIntent_ofVisitor (tick : Nat) (i : Intent) (v : Visitor) :
    (ofVisitor v).onIntent tick i = ofOutcome (v.onIntent tick i) := by
  obtain ⟨id, rules, phase⟩ := v
  cases phase with
  | scanning => cases i <;> rfl
  | connected booth awaiting =>
    cases i with
    | affirm => cases awaiting <;> rfl
    | decline => exact ofOutcome_andThen (_, _) (returnToScanning_ofVisitor tick)
    | _ => rfl
  | waiting booth claiming place =>
    cases i with
    | leaveQueue => exact ofOutcome_andThen (_, _) (returnToScanning_ofVisitor tick)
    | _ => rfl
  | inUse booth start => cases i <;> rfl

/-- The periodic work comes to the same, also if it goes astray. -/
theorem onTick_ofVisitor (m : Moment) (v : Visitor) : (ofVisitor v).onTick m = (v.onTick m).map ofOutcome := by
  obtain ⟨id, rules, phase⟩ := v
  cases phase with
  | scanning =>
    simp only [Visitor.onTick, apply_ite (Except.map ofOutcome)]
    rfl
  | connected | waiting => rfl
  | inUse booth start =>
    -- the time that the visitor may stay is added up before either looks at the clock
    change rules.clientLimit >>= _ = Except.map ofOutcome (rules.clientLimit >>= _)
    cases rules.clientLimit with
    | error fault => rfl
    | ok limit =>
      change ite _ _ _ = Except.map ofOutcome (ite _ _ _)
      rw [apply_ite (Except.map ofOutcome)]
      rfl

/-- Whatever a visitor is asked, it comes to the same on its slate, faults included. -/
theorem attempt_ofVisitor (v : Visitor) (m : Moment) (i : Input) :
    (ofVisitor v).attempt m i = (v.attempt m i).map ofOutcome := by
  cases i with
  | start => exact congrArg Except.ok (startScan_ofVisitor m.tick v)
  | message source message rssi snr =>
    exact congrArg Except.ok (onMessage_ofVisitor m source message rssi snr v)
  | timer kind =>
    cases kind with
    | selection => exact congrArg Except.ok (onSelectionTimeout_ofVisitor m.tick v)
    | retry => exact congrArg Except.ok (onRetryTimeout_ofVisitor m.tick v)
  | intent i => exact congrArg Except.ok (onIntent_ofVisitor m.tick i v)
  | tick => exact onTick_ofVisitor m v

/-- The slate of a visitor reacts as the visitor does. -/
theorem react_ofVisitor (v : Visitor) (m : Moment) (i : Input) :
    (ofVisitor v).react m i = ofOutcome (v.react m i) := by
  rw [react, attempt_ofVisitor, Visitor.react]
  cases v.attempt m i <;> rfl

/-- The slate of a visitor runs as the visitor does. -/
theorem run_ofVisitor (v : Visitor) (events : List (Moment × Input)) :
    (ofVisitor v).run events = ofOutcome (v.run events) := by
  induction events generalizing v with
  | nil => rfl
  | cons e rest ih =>
    rw [run, runWith, react_ofVisitor]
    exact ofOutcome_andThen _ ih

/-- Every slate of a run shows the visitor that has run as far. -/
theorem run_ofRules (id : NodeId) (r : Rules) (events : List (Moment × Input)) :
    (ofRules id r).run events = ofOutcome ((Visitor.ofRules id r).run events) := by
  rw [← ofVisitor_ofRules, run_ofVisitor]

end Slate

end BoothFloor
