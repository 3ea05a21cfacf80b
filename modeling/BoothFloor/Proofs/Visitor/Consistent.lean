import BoothFloor.Proofs.Visitor.Slate
import BoothFloor.Proofs.Visitor.Timers

/-!
# The fields of a slate agree

What a slate shows besides the stage fits the stage: a booth unless the visitor scans, a session exactly inside, a place
only in a queue, and no awaited answer but one that the stage leaves open. The counts of retries stay below their
ceilings and are back at zero whenever the visitor scans, so nothing of one booth is carried over to the next. A slate
shows a visitor all along its run; the fields that the visitor's phase does not settle are kept in order by its
reactions, and the others agree because every handler writes them together.
-/

namespace BoothFloor

namespace Visitor

/-- What a visitor carries besides its phase fits the phase. -/
structure Orderly (v : Visitor) : Prop where
  scansInPhase : v.ScansInPhase
  /-- The person at the console is asked only if the rules say so. -/
  asked : ∀ booth, v.phase = .connected booth .decision → v.rules.autoAffirm = false
  /-- A zero in a place says that there is none, so the visitor keeps no such place. -/
  placed : ∀ place, v.phase.place? = some place → place.position ≠ 0 ∧ place.total ≠ 0
  connects : v.connectRetries ≤ v.rules.connectRetryLimit.toNat
  registers : v.registerRetries ≤ v.rules.registerRetryLimit.toNat
  untried : v.phase = .scanning → v.connectRetries = 0 ∧ v.registerRetries = 0

variable {v : Visitor} {m : Moment} {i : Input}

/-- Only the scanning phase is of the scanning stage. -/
theorem stage_eq_scanning_iff (v : Visitor) : v.stage = .scanning ↔ v.phase = .scanning := by
  rw [stage]
  cases v.phase <;> simp [Phase.stage]

/-- A visitor that opens its first scan is in order. -/
theorem orderly_startScan (id : NodeId) (r : Rules) (tick : Nat) : (startScan tick (ofRules id r)).1.Orderly where
  scansInPhase := fun _ => rfl
  asked := nofun
  placed := nofun
  connects := Nat.zero_le _
  registers := Nat.zero_le _
  untried := fun _ => ⟨rfl, rfl⟩

/-- A visitor that drops its booth is in order. -/
theorem orderly_freed (v : Visitor) (tick : Nat) : (v.freed tick).Orderly where
  scansInPhase := nofun
  asked := nofun
  placed := nofun
  connects := Nat.zero_le _
  registers := Nat.zero_le _
  untried := fun _ => ⟨rfl, rfl⟩

/-- Every reaction but the one to a second start leaves the visitor in order. -/
theorem react_orderly (h : v.Orderly) (m : Moment) (hi : i ≠ .start) : (v.react m i).1.Orderly := by
  have hreaction := v.react_reaction m i
  have hscans := hreaction.scansInPhase h.scansInPhase fun hstart => absurd hstart hi
  generalize v.react m i = outcome at hreaction hscans
  cases hreaction with
  | idle | chats | answers | showsText | showsChat | showsExit => exact h
  | starts => exact absurd rfl hi
  | rescans | findsNone | hears => exact ⟨hscans, h.asked, h.placed, h.connects, h.registers, h.untried⟩
  | connects => exact ⟨hscans, nofun, nofun, Nat.zero_le _, h.registers, nofun⟩
  | reconnects booth hphase hlimit =>
    exact ⟨hscans, h.asked, h.placed, hlimit, h.registers, fun hscanning => by simp [hphase] at hscanning⟩
  | reaffirms booth hphase hlimit | reclaims booth place hphase hlimit =>
    exact ⟨hscans, h.asked, h.placed, h.connects, hlimit, fun hscanning => by simp [hphase] at hscanning⟩
  | accepts => exact ⟨hscans, nofun, nofun, h.connects, Nat.zero_le _, nofun⟩
  | consults booth current capacity waiting description rssi snr hphase hauto =>
    exact ⟨hscans, fun _ _ => hauto, nofun, h.connects, Nat.zero_le _, nofun⟩
  | affirms => exact ⟨hscans, nofun, nofun, h.connects, h.registers, nofun⟩
  | claims booth claiming place rssi snr hphase =>
    exact ⟨hscans, nofun, fun p hp => h.placed p (by rw [hphase]; exact hp), h.connects, Nat.zero_le _, nofun⟩
  | enters =>
    rw [markSpent_eq] at hscans ⊢
    exact ⟨hscans, nofun, nofun, h.connects, h.registers, nofun⟩
  | queues => exact ⟨hscans, nofun, h.placed, h.connects, h.registers, nofun⟩
  | placed booth message position total claiming place rssi snr hmessage hphase hposition =>
    refine ⟨hscans, nofun, fun p hp => ?_, h.connects, h.registers, nofun⟩
    obtain rfl := Option.some.inj hp
    exact not_or.mp hposition
  | refused => exact orderly_freed _ _
  | _ => exact orderly_freed v m.tick

end Visitor

namespace Slate

/-- The stage on a slate tells what else is on it, and its retries are within their ceilings. -/
structure Consistent (s : Slate) : Prop where
  booth : s.booth = none ↔ s.stage = .scanning
  session : s.sessionStart.isSome = true ↔ s.stage = .inUse
  awaits_none : s.stage = .scanning ∨ s.stage = .inUse → s.awaiting = none
  awaits_connected : s.stage = .connected →
    s.awaiting = some .boothInfo ∨
      s.awaiting = some .decision ∧ s.rules.autoAffirm = false ∨
      s.awaiting = some .registration
  awaits_waiting : s.stage = .waiting → s.awaiting = none ∨ s.awaiting = some .registration
  placeless : s.stage ≠ .waiting → s.position = 0 ∧ s.total = 0
  placed : s.stage = .waiting → (s.position = 0 ↔ s.total = 0)
  scans : s.scanOpen = true → s.stage = .scanning
  connects : s.connectRetries ≤ s.rules.connectRetryLimit.toNat
  registers : s.registerRetries ≤ s.rules.registerRetryLimit.toNat
  untried : s.stage = .scanning → s.connectRetries = 0 ∧ s.registerRetries = 0

/-- The slate of a visitor in order is consistent. -/
theorem consistent_ofVisitor {v : Visitor} (h : v.Orderly) : (ofVisitor v).Consistent := by
  have hscanning := v.stage_eq_scanning_iff
  constructor
  case connects => exact h.connects
  case registers => exact h.registers
  case scans => exact fun hopen => hscanning.mpr (h.scansInPhase hopen)
  case untried => exact fun hstage => h.untried (hscanning.mp hstage)
  case placed =>
    intro _
    cases hplace : v.phase.place? with
    | none => simp [ofVisitor, hplace]
    | some place =>
      obtain ⟨hposition, htotal⟩ := h.placed place hplace
      simp [ofVisitor, hplace, hposition, htotal]
  case awaits_connected =>
    intro hstage
    have hasked := h.asked
    simp only [ofVisitor, Visitor.stage] at hstage ⊢
    cases hphase : v.phase with
    | connected booth awaiting => cases awaiting <;> simp_all [Phase.awaiting?]
    | _ => simp [hphase, Phase.stage] at hstage
  case awaits_waiting =>
    intro hstage
    simp only [ofVisitor, Visitor.stage] at hstage ⊢
    cases hphase : v.phase with
    | waiting booth claiming place => cases claiming <;> simp [Phase.awaiting?]
    | _ => simp [hphase, Phase.stage] at hstage
  -- the other fields are written together with the phase
  all_goals
    simp only [ofVisitor, Visitor.stage, Visitor.booth?]
    cases v.phase <;> simp [Phase.stage, Phase.booth?, Phase.start?, Phase.awaiting?, Phase.place?]

/-- A slate that is started once and then given any inputs at any moments is consistent all along. -/
theorem run_consistent (id : NodeId) (r : Rules) (first : Moment) (events : List (Moment × Input))
    (honce : ∀ e ∈ events, e.2 ≠ .start) :
    let s := ((ofRules id r).run ((first, .start) :: events)).1
    s.rules = r ∧ s.Consistent := by
  intro s
  let v := ((Visitor.ofRules id r).run ((first, .start) :: events)).1
  have hshows : s = ofVisitor v := congrArg Prod.fst (run_ofRules id r _)
  have horderly : v.Orderly := by
    apply runWith_keeps (Visitor.orderly_startScan id r first.tick)
    exact fun w m i hmem hw => Visitor.react_orderly hw m (honce (m, i) hmem)
  rw [hshows]
  exact ⟨Visitor.run_rules (.ofRules id r) _, consistent_ofVisitor horderly⟩

/-- A visitor hears a booth, accepts it and has to wait as the second of three. -/
def joiningQueue : List (Moment × Input) :=
  let heard (t : UInt64) (message : Message) : Moment × Input := (⟨⟨t⟩, 2⟩, .message ⟨1⟩ message (-50) 5)
  [heard 10 (.boothAnnounce ⟨⟨1⟩, 1, 1, 2⟩), (⟨⟨200⟩, 2⟩, .timer .selection),
    heard 210 (.boothInfo 1 1 2 "Booth 1"), (⟨⟨510⟩, 3⟩, .timer .retry),
    heard 520 (.registerResponse false .fullWaiting), heard 530 (.queueInfo 2 3)]

/-- The fields agree on the slate of the waiting visitor, and on that of the visitor that is dropped from the queue. -/
theorem run_consistent_joiningQueue :
    let waiting := ((ofRules ⟨5⟩ .brisk).run ((⟨⟨0⟩, 1⟩, .start) :: joiningQueue)).1
    let dropped := ((ofRules ⟨5⟩ .brisk).run
      ((⟨⟨0⟩, 1⟩, .start) :: (joiningQueue ++ [(⟨⟨540⟩, 4⟩, .message ⟨1⟩ (.queueUpdate 0 0) (-50) 5)]))).1
    (∀ e ∈ joiningQueue, e.2 ≠ .start) ∧
      (waiting.stage = .waiting ∧ waiting.position = 2 ∧ waiting.registerRetries = 1) ∧
      waiting.Consistent ∧ dropped.stage = .scanning ∧ dropped.Consistent := by
  intro waiting dropped
  have honce : ∀ e ∈ joiningQueue, e.2 ≠ .start := by decide
  exact ⟨honce, by decide, (run_consistent ⟨5⟩ .brisk ⟨⟨0⟩, 1⟩ joiningQueue honce).2, by decide,
    (run_consistent ⟨5⟩ .brisk ⟨⟨0⟩, 1⟩ _ (by decide)).2⟩

end Slate

end BoothFloor
