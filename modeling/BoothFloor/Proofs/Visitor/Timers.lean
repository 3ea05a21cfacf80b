import BoothFloor.Proofs.Timers
import BoothFloor.Proofs.Visitor.Visits

/-!
# A visitor and its timers

For each of the two timers there is something that a visitor waits for: an answer, or the end of a
scan. Every reaction of the visitor leaves each timer live exactly if the visitor then waits for it:
`Visitor.Coupled`. So an expiry that is taken is one for which the visitor waits.
-/

namespace BoothFloor

/-- Whether a visitor in this phase waits for an answer: for a booth's introduction or for the answer to
a registration. -/
def Phase.awaitsAnswer : Phase → Bool
  | connected _ .boothInfo | connected _ .registration => true
  | waiting _ claiming _ => claiming
  | _ => false

namespace Visitor

/-- The visitor waits for what a timer guards: an answer, or the end of a scan. -/
def wants (v : Visitor) : TimerKind → Bool
  | .retry => v.phase.awaitsAnswer
  | .selection => v.scanOpen

/-- A scan window is open only while the visitor is scanning. -/
def ScansInPhase (v : Visitor) : Prop := v.scanOpen = true → v.phase = .scanning

variable {v : Visitor} {m : Moment} {i : Input}

/-- A timeout for which the visitor waits is acted on. -/
theorem acts_of_wants {k : TimerKind} (hscan : v.ScansInPhase) (h : v.wants k = true) :
    (v.react m (.timer k)).2 ≠ [] := by
  cases k with
  | selection =>
    have hopen : v.scanOpen = true := h
    have hstage : v.stage = .scanning := by rw [stage, hscan hopen]; rfl
    change (v.onSelectionTimeout m.tick).2 ≠ []
    rw [onSelectionTimeout, if_pos ⟨hstage, hopen⟩]
    dsimp only
    split <;> simp [andThen]
  | retry =>
    change v.phase.awaitsAnswer = true at h
    change (v.onRetryTimeout m.tick).2 ≠ []
    unfold onRetryTimeout
    split
    · split <;> simp [connectActions, giveUp, andThen]
    · split <;> simp [affirmActions, giveUp, andThen]
    · split <;> simp [registerActions, andThen]
    · next hinfo hregistration hclaim =>
      cases hphase : v.phase with
      | connected booth awaiting => cases awaiting <;> simp_all [Phase.awaitsAnswer]
      | waiting booth claiming place => cases claiming <;> simp_all [Phase.awaitsAnswer]
      | scanning | inUse => simp [hphase, Phase.awaitsAnswer] at h

/-- Asking for an introduction starts the timer for the answer. -/
@[simp]
theorem liveAfter_connectActions (v : Visitor) (booth : NodeId) (k : TimerKind) (live : Bool) :
    Action.liveAfter k live (v.connectActions booth) = (live || decide (.retry = k)) := rfl

/-- Asking for admission starts the timer for the answer. -/
@[simp]
theorem liveAfter_registerActions (v : Visitor) (booth : NodeId) (k : TimerKind) (live : Bool) :
    Action.liveAfter k live (v.registerActions booth) = (live || decide (.retry = k)) := rfl

/-- Accepting a booth starts the timer for the answer. -/
@[simp]
theorem liveAfter_affirmActions (v : Visitor) (booth : NodeId) (k : TimerKind) (live : Bool) :
    Action.liveAfter k live (v.affirmActions booth) = (live || decide (.retry = k)) := rfl

/-- Opening a scan starts the timer for its end. -/
@[simp]
theorem liveAfter_startScan (v : Visitor) (tick : Nat) (k : TimerKind) (live : Bool) :
    Action.liveAfter k live (startScan tick v).2 = (live || decide (.selection = k)) := by
  simp [startScan]

/-- A visitor that drops its booth stops both timers. -/
@[simp]
theorem liveAfter_freedActions (v : Visitor) (k : TimerKind) (live : Bool) :
    Action.liveAfter k live v.freedActions = false := by
  cases k <;> simp [freedActions]

/-- A visitor that drops its booth waits for nothing. -/
@[simp]
theorem wants_freed (v : Visitor) (tick : Nat) (k : TimerKind) : (v.freed tick).wants k = false := by
  cases k <;> rfl

/-- A reaction leaves a timer live exactly if the visitor then waits for it. The expiry of a timer is
taken by the time of the reaction to it, which must not be to stay idle. -/
theorem Reaction.wants_eq {outcome : Visitor × List Action} (h : Reaction v m i outcome)
    (hacts : ∀ k, i = .timer k → outcome.2 ≠ []) (k : TimerKind) :
    outcome.1.wants k = Action.liveAfter k (if i = .timer k then false else v.wants k) outcome.2 := by
  cases h with
  | idle i =>
    rw [if_neg fun hi => hacts k hi rfl]
    rfl
  | starts | rescans => cases k <;> simp [startScan, wants]
  | hears | chats | answers | showsText | showsChat | showsExit => rfl
  | findsNone hphase | connects booth score hphase | reconnects booth hphase
  | reaffirms booth hphase | reclaims booth place hphase | affirms booth hphase =>
    cases k <;> simp [wants, hphase, Phase.awaitsAnswer]
  | accepts | consults | claims | enters => cases k <;> simp [wants, Phase.awaitsAnswer, markSpent_eq]
  | queues =>
    by_cases hstage : v.stage = .waiting <;> cases k <;> simp [wants, Phase.awaitsAnswer, hstage]
  | placed booth message position total claiming place rssi snr hmessage hphase =>
    cases k <;> simp [wants, hphase, Phase.awaitsAnswer]
  | _ => simp

/-- Every reaction closes the scan window when the visitor leaves the scanning phase. -/
theorem Reaction.scansInPhase {outcome : Visitor × List Action} (h : Reaction v m i outcome)
    (hscan : v.ScansInPhase) (hstart : i = .start → v.phase = .scanning) : outcome.1.ScansInPhase := by
  -- outside the scanning phase the window is closed
  have hshut (hother : v.phase ≠ .scanning) : v.scanOpen ≠ true := fun hopen => hother (hscan hopen)
  cases h with
  | idle | chats | answers | showsText | showsChat | showsExit => exact hscan
  | reconnects | reaffirms | reclaims => exact hscan
  | starts => exact fun _ => hstart rfl
  | rescans hphase | hears _ _ _ _ _ hphase => exact fun _ => hphase
  | accepts _ _ _ _ _ _ _ hphase | consults _ _ _ _ _ _ _ hphase | affirms _ hphase
  | claims _ _ _ _ _ hphase | placed _ _ _ _ _ _ _ _ _ hphase =>
    exact fun hopen => absurd hopen (hshut (by simp [hphase]))
  | enters _ _ _ _ hregistering =>
    rw [markSpent_eq]
    exact fun hopen => absurd hopen (hshut fun hphase => by simp [registering?, hphase] at hregistering)
  | queues _ _ _ hregistering =>
    exact fun hopen => absurd hopen (hshut fun hphase => by simp [registering?, hphase] at hregistering)
  | _ => nofun

/-- Each timer is live exactly while the visitor waits for it, and never armed with an expiry left. -/
structure Coupled (v : Visitor) (a : Alarms) : Prop where
  live : ∀ k, a.isLive k = v.wants k
  exclusive : a.Exclusive
  scansInPhase : v.ScansInPhase

/-- A new visitor waits for nothing. -/
theorem coupled_ofRules (id : NodeId) (r : Rules) : (ofRules id r).Coupled {} where
  live := fun k => by cases k <;> rfl
  exclusive := fun k harmed => by cases k <;> cases harmed
  scansInPhase := nofun

/-- A reaction to anything but a timeout keeps a visitor coupled with its timers. The first scan starts
in the scanning phase. -/
theorem Coupled.react {a : Alarms} (h : v.Coupled a) (hother : ∀ k, i ≠ .timer k)
    (hstart : i = .start → v.phase = .scanning) (now : Instant) :
    (v.react m i).1.Coupled (Action.alarmsAfter now a (v.react m i).2) where
  live := fun k => by
    rw [Action.isLive_alarmsAfter, h.live,
      (v.react_reaction m i).wants_eq (fun k hi => absurd hi (hother k)), if_neg (hother k)]
  exclusive := Action.exclusive_alarmsAfter now h.exclusive _
  scansInPhase := (v.react_reaction m i).scansInPhase h.scansInPhase hstart

/-- An expiry that can be taken is that of a timer for which the visitor waits. -/
theorem Coupled.wants_of_isSet {a : Alarms} (h : v.Coupled a) {k : TimerKind}
    (hset : a.signals.isSet k.signal = true) : v.wants k = true := by
  rw [← h.live k, Alarms.isLive, hset, Bool.or_true]

/-- Taking an expiry and reacting to the timeout keeps a visitor coupled with its timers. -/
theorem Coupled.timeout {a : Alarms} (h : v.Coupled a) {k : TimerKind}
    (hset : a.signals.isSet k.signal = true) (now : Instant) :
    (v.react m (.timer k)).1.Coupled
      (Action.alarmsAfter now ⟨a.timers, a.signals.clear k.signal⟩ (v.react m (.timer k)).2) where
  live := fun j => by
    have hacts := acts_of_wants (m := m) h.scansInPhase (h.wants_of_isSet hset)
    have htaken : Alarms.isLive ⟨a.timers, a.signals.clear k.signal⟩ j =
        if Input.timer k = Input.timer j then false else v.wants j := by
      by_cases hj : k = j
      · subst hj
        have hunarmed : a.timers.isArmed k = false := by
          rw [Bool.eq_false_iff]
          exact fun harmed => Bool.false_ne_true ((h.exclusive k harmed).symm.trans hset)
        simp [Alarms.isLive, Signals.isSet_clear, hunarmed]
      · have hsignal : j.signal ≠ k.signal := fun heq => hj (TimerKind.signal_inj.mp heq).symm
        rw [if_neg (by simpa using hj), ← h.live j]
        simp [Alarms.isLive, Signals.isSet_clear, hsignal]
    rw [Action.isLive_alarmsAfter, htaken,
      (v.react_reaction m (.timer k)).wants_eq fun _ _ => hacts]
  exclusive := by
    refine Action.exclusive_alarmsAfter now (fun j harmed => ?_) _
    simp [Signals.isSet_clear, h.exclusive j harmed]
  scansInPhase := (v.react_reaction m (.timer k)).scansInPhase h.scansInPhase nofun

/-- Taking note of a signal that is no timer's changes nothing for the timers. -/
theorem Coupled.of_signals {a : Alarms} (h : v.Coupled a) {signals : Signals}
    (hsame : ∀ k : TimerKind, signals.isSet k.signal = a.signals.isSet k.signal) :
    v.Coupled ⟨a.timers, signals⟩ where
  live := fun k => by rw [← h.live k, Alarms.isLive, Alarms.isLive, hsame k]
  exclusive := fun k harmed => (hsame k).trans (h.exclusive k harmed)
  scansInPhase := h.scansInPhase

/-- Polling the timers keeps a visitor coupled with them. -/
theorem Coupled.poll {a : Alarms} (h : v.Coupled a) (now : Instant) : v.Coupled (a.poll now) where
  live := fun k => (a.isLive_poll now k).trans (h.live k)
  exclusive := h.exclusive.poll now
  scansInPhase := h.scansInPhase

/-- What a visitor accepts as the answer that it waits for. -/
inductive Accepts (v : Visitor) : NodeId → Message → Prop
  /-- The introduction of the booth that was asked for one. -/
  | introduction (booth : NodeId) (current capacity waiting : UInt8) (description : String)
      (hphase : v.phase = .connected booth .boothInfo) :
      Accepts v booth (.boothInfo current capacity waiting description)
  /-- An answer to a registration that does not contradict itself. -/
  | decision (booth : NodeId) (success : Bool) (reason : RegisterReason)
      (hregistering : v.registering? = some booth) (hmeant : success = true ∨ reason ≠ .success) :
      Accepts v booth (.registerResponse success reason)

/-- With the answer the timer that guards it is stopped. -/
theorem Accepts.stops {booth : NodeId} {msg : Message} (h : v.Accepts booth msg) (m : Moment) (rssi : Int16)
    (snr : Int8) : .stopTimer .retry ∈ (v.react m (.message booth msg rssi snr)).2 := by
  cases h with
  | introduction current capacity waiting description hphase =>
    have hbooth : v.booth? = some booth := by rw [booth?, hphase]; rfl
    change _ ∈ (if v.booth? = some booth then v.onBoothInfo current capacity waiting description else (v, [])).2
    rw [if_pos hbooth, onBoothInfo, hphase]
    dsimp only
    split <;> simp
  | decision success reason hregistering hmeant =>
    have hbooth := booth?_of_registering? hregistering
    change _ ∈ (if v.booth? = some booth then v.onRegisterResponse m success reason else (v, [])).2
    rw [if_pos hbooth, onRegisterResponse, hregistering]
    cases success with
    | true => simp [andThen]
    | false =>
      cases reason with
      | success => simp at hmeant
      | fullWaiting | alreadyUsed => simp [andThen]

end Visitor

end BoothFloor
