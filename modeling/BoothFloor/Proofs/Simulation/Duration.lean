import BoothFloor.Proofs.Checked.Turn
import BoothFloor.Proofs.Simulation.Ghosts

/-!
# How long a simulation lasts

A simulation returns a report if no node goes astray and the word holds how long it took. The clock, the number of ticks
and the report each take the whole milliseconds of a tick on their own, and the number of ticks alone counts a tick
without any as one of a millisecond. The clock and the report agree on every tick, and with the duration that was asked
for they agree on a tick of a millisecond or more that fits the word. On a shorter tick the time stands still.
-/

namespace BoothFloor

namespace Simulation

variable {lottery : Lottery Setup.strengthCount} {s : Setup} {sim : Simulation}

/-- Every tick is counted. -/
theorem steps_ticks (n : Nat) (sim : Simulation) : (steps n sim).ticks = sim.ticks + n := by
  induction n with
  | zero => rfl
  | succ n ih =>
    rw [steps_succ]
    change (steps n sim).ticks + 1 = sim.ticks + (n + 1)
    rw [ih, Nat.add_assoc]

/-- The nodes of a simulation play by the rules of the setup at all times. -/
theorem steps_plays (accepted : ofSetupWith lottery s = .ok sim) (n : Nat) :
    ∀ node ∈ (steps n sim).floor.nodes, node.machine.Plays s.raisedRules := by
  induction n with
  | zero =>
    rw [steps, (nodes_of_ofSetup accepted).1]
    intro node hnode
    obtain ⟨id, -, rfl⟩ := List.mem_map.mp hnode
    exact Machine.plays_ofRules id s.raisedRules
  | succ n ih =>
    rw [steps_succ, step_nodes]
    intro node hnode
    obtain ⟨before, hbefore, rfl⟩ := List.mem_map.mp hnode
    rw [Floor.settled_machine]
    exact (ih before hbefore).run _

/-- The fault of a simulation is the first one of its ticks. -/
theorem step_fault (sim : Simulation) :
    sim.step.fault = sim.fault.or (sim.floor.round sim.setup.tick sim.radio).2.fault := rfl

/-- As long as the word holds how long a visitor may stay, no node of a simulation goes astray. -/
theorem steps_fault (fits : s.rules.sessionDuration.ms.toNat + s.rules.sessionGrace.ms.toNat < 2 ^ 64)
    (accepted : ofSetupWith lottery s = .ok sim) (n : Nat) : (steps n sim).fault = none := by
  induction n with
  | zero => rw [steps, (eq_of_ofSetup accepted).1]
  | succ n ih =>
    have hround : ((steps n sim).floor.round (steps n sim).setup.tick (steps n sim).radio).2.fault = none := by
      refine List.findSome?_eq_none_iff.mpr fun taken htaken => ?_
      obtain ⟨node, hnode, rfl⟩ := List.mem_map.mp htaken
      refine (Node.turn_fault_eq (steps_plays accepted n node hnode) _).trans (if_neg fun hastray => hastray.2 ?_)
      rw [Setup.raisedRules_eq]
      exact fits
    rw [steps_succ, step_fault, ih, hround]
    rfl

/-- A run returns a report if the word holds how long a visitor may stay and how long the ticks take together. -/
theorem exists_run_eq (fits : s.rules.sessionDuration.ms.toNat + s.rules.sessionGrace.ms.toNat < 2 ^ 64)
    (accepted : ofSetupWith lottery s = .ok sim) (holds : runTicks s * s.tick.toSpan.ms.toNat < 2 ^ 64) :
    ∃ report, sim.run = .ok report := by
  have hsim := (eq_of_ofSetup accepted).1
  have htick : sim.setup.tick = s.tick := by rw [hsim]
  have hzero : sim.ticks = 0 := by rw [hsim]
  have hcount : runTicks sim.setup = runTicks s := by rw [hsim]; rfl
  refine ⟨_, report_eq_ok_iff.mpr ⟨steps_fault fits accepted _, ?_, rfl⟩⟩
  rw [hcount, steps_ticks, steps_setup, htick, hzero, Nat.zero_add]
  exact holds

/-- A run that returns a report is as many ticks as fit into the duration. It reports each of them and, modulo the word,
the time that they take together, which is what the clock shows in the end. -/
theorem run_of_ofSetup (accepted : ofSetupWith lottery s = .ok sim) {report : Report} (returned : sim.run = .ok report)
    {n : Nat} (hcount : runTicks s = n) :
    (steps n sim).report = .ok report ∧ report.ticks = n ∧ n * s.tick.toSpan.ms.toNat < 2 ^ 64 ∧
      report.durationMs.toNat = n * s.tick.wholeMillis % 2 ^ 64 ∧
      (steps n sim).floor.clock.now.ms = report.durationMs := by
  have hsim := (eq_of_ofSetup accepted).1
  have htick : sim.setup.tick = s.tick := by rw [hsim]
  have hstart : sim.floor.clock.now = .zero := by rw [hsim]
  have hzero : sim.ticks = 0 := by rw [hsim]
  have hcount' : runTicks sim.setup = n := by
    rw [hsim]
    exact hcount
  have hticks : (steps n sim).ticks = n := by rw [steps_ticks, hzero, Nat.zero_add]
  have hsetup : (steps n sim).setup.tick = s.tick := by rw [steps_setup, htick]
  rw [run, hcount'] at returned
  obtain ⟨-, hfits, hreport⟩ := report_eq_ok_iff.mp returned
  rw [hticks, hsetup] at hfits hreport
  have hlength : report.durationMs.toNat = n * s.tick.wholeMillis % 2 ^ 64 := by
    rw [hreport]
    change (UInt64.ofNat (n * (UInt64.ofNat s.tick.wholeMillis).toNat)).toNat = _
    rw [UInt64.toNat_ofNat', UInt64.toNat_ofNat', Nat.mul_mod_mod]
  refine ⟨returned, ?_, hfits, hlength, UInt64.toNat_inj.mp ?_⟩
  · rw [hreport]
    exact hticks
  · rw [hlength, steps_clock, htick, hstart]
    exact congrArg (· % 2 ^ 64) (Nat.zero_add _)

/-- A whole run that returns a report takes as many ticks as fit into the duration, and the clock, which begins at zero,
ends where the report says. If a tick lasts a millisecond or more and the word holds the time of all ticks, as it does
where it holds one tick, that time is the duration but for less than a tick. If a tick lasts less than a millisecond, no
time passes at all. -/
theorem run_duration (lottery : Lottery Setup.strengthCount) (s : Setup) (sim : Simulation)
    (accepted : ofSetupWith lottery s = .ok sim)
    (fits : s.duration.wholeMillis / max 1 s.tick.wholeMillis < 2 ^ 64) (report : Report)
    (returned : sim.run = .ok report) :
    let tick := s.tick.wholeMillis
    let duration := s.duration.wholeMillis
    let final := steps (runTicks s) sim
    sim.floor.clock.now = .zero ∧ final.report = .ok report ∧ final.floor.clock.now.ms = report.durationMs ∧
      report.ticks = duration / max 1 tick ∧ report.durationMs.toNat = report.ticks * tick % 2 ^ 64 ∧
      (tick < 2 ^ 64 → report.ticks * tick < 2 ^ 64) ∧
      (1 ≤ tick → report.ticks * tick < 2 ^ 64 →
        report.durationMs.toNat ≤ duration ∧ duration < report.durationMs.toNat + tick) ∧
      (tick = 0 → report.ticks = duration ∧ report.durationMs = 0) := by
  intro tick duration final
  obtain ⟨hreport, hticks, hword, hlength, hclock⟩ := run_of_ofSetup accepted returned rfl
  have hcount : runTicks s = duration / max 1 tick := UInt64.toNat_ofNat_of_lt' fits
  have hstart : sim.floor.clock.now = .zero := by rw [(eq_of_ofSetup accepted).1]
  rw [← hticks] at hlength hword
  rw [hcount] at hticks
  refine ⟨hstart, hreport, hclock, hticks, hlength, fun hsmall => ?_, fun hlong hword => ?_, fun hshort => ⟨?_, ?_⟩⟩
  · have hspan : s.tick.toSpan.ms.toNat = tick := UInt64.toNat_ofNat_of_lt' hsmall
    rwa [hspan] at hword
  · rw [hlength, Nat.mod_eq_of_lt hword, hticks, Nat.max_eq_right hlong]
    exact ⟨Nat.div_mul_le_self duration tick, Nat.lt_div_mul_add hlong⟩
  · rw [hticks, hshort, Nat.max_eq_left (Nat.zero_le 1), Nat.div_one]
  · refine UInt64.toNat_inj.mp ?_
    rw [hlength, show s.tick.wholeMillis = 0 from hshort, Nat.mul_zero]
    rfl

/-- Three booths and nobody to visit them. -/
def emptyHall (duration tick : Duration) : Setup where
  rules := .brisk
  users := 0
  duration := duration
  tick := tick
  seed := 1

/-- Of 25 milliseconds two ticks of ten take 20. -/
theorem run_duration_emptyHall :
    ∃ sim report, ofSetup (emptyHall (.ofMillis 25) (.ofMillis 10)) = .ok sim ∧ sim.run = .ok report ∧
      report.ticks = 2 ∧ report.durationMs.toNat = 20 ∧ (steps 2 sim).floor.clock.now.ms.toNat = 20 := by
  obtain ⟨sim, accepted⟩ : ∃ sim, ofSetup (emptyHall (.ofMillis 25) (.ofMillis 10)) = .ok sim := ⟨_, rfl⟩
  obtain ⟨report, returned⟩ := exists_run_eq (by decide) accepted (by decide)
  obtain ⟨-, -, hclock, hticks, hlength, -⟩ :=
    run_duration Setup.stream _ sim accepted (by decide) report returned
  have htwo : report.ticks = 2 := hticks
  have htwenty : report.durationMs.toNat = 20 := by
    rw [hlength, htwo]
    rfl
  have hcount : runTicks (emptyHall (.ofMillis 25) (.ofMillis 10)) = 2 := rfl
  rw [hcount] at hclock
  exact ⟨sim, report, accepted, returned, htwo, htwenty, by rw [hclock, htwenty]⟩

/-- A simulation of ten milliseconds on ticks of half a millisecond has lasted none of them in the end, by the report as
by the clock. Nor does a simulation last at all that consists of a single tick too long for the word. -/
theorem run_duration_lost :
    (let s := emptyHall (.ofMillis 10) (.ofMicros 500)
      ∃ sim report, ofSetup s = .ok sim ∧ sim.run = .ok report ∧ report.ticks = 10 ∧ report.durationMs.toNat = 0 ∧
        (steps 10 sim).floor.clock.now.ms = 0 ∧ report.durationMs.toNat ≠ s.duration.wholeMillis) ∧
      let s := emptyHall (.ofMillis (2 ^ 64)) (.ofMillis (2 ^ 64))
      ∃ sim report, ofSetup s = .ok sim ∧ sim.run = .ok report ∧ report.ticks = 1 ∧ report.durationMs.toNat = 0 ∧
        (steps 1 sim).floor.clock.now.ms = 0 ∧
        ¬ s.duration.wholeMillis < report.durationMs.toNat + s.tick.wholeMillis := by
  constructor
  · obtain ⟨sim, accepted⟩ : ∃ sim, ofSetup (emptyHall (.ofMillis 10) (.ofMicros 500)) = .ok sim := ⟨_, rfl⟩
    obtain ⟨report, returned⟩ := exists_run_eq (by decide) accepted (by decide)
    obtain ⟨-, hticks, -, hlength, hclock⟩ := run_of_ofSetup accepted returned (n := 10) rfl
    have hnone : report.durationMs.toNat = 0 := hlength
    refine ⟨sim, report, accepted, returned, hticks, hnone, hclock.trans (UInt64.toNat_inj.mp hnone), ?_⟩
    rw [hnone]
    decide
  · obtain ⟨sim, accepted⟩ : ∃ sim, ofSetup (emptyHall (.ofMillis (2 ^ 64)) (.ofMillis (2 ^ 64))) = .ok sim := ⟨_, rfl⟩
    obtain ⟨report, returned⟩ := exists_run_eq (by decide) accepted (by decide)
    obtain ⟨-, hticks, -, hlength, hclock⟩ := run_of_ofSetup accepted returned (n := 1) rfl
    have hnone : report.durationMs.toNat = 0 := hlength
    refine ⟨sim, report, accepted, returned, hticks, hnone, hclock.trans (UInt64.toNat_inj.mp hnone), ?_⟩
    rw [hnone]
    decide

end Simulation

end BoothFloor
