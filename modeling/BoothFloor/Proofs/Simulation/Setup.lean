import BoothFloor.Proofs.Floor.Crowd
import BoothFloor.Proofs.Node.Setup
import BoothFloor.Proofs.Rules
import BoothFloor.Simulation

/-!
# Setting up a simulation

A setup that is accepted puts a crowd on the floor: its visitors are numbered after the hosts and below the
id for everyone, and the rules are the given ones but for an inbox that holds four frames from each node.
-/

namespace BoothFloor

namespace Setup

variable {s : Setup}

/-- The rules of a simulation are the given ones but for the depth of the inboxes. -/
theorem raisedRules_eq (s : Setup) : s.raisedRules = { s.rules with frameDepth := s.raisedRules.frameDepth } := by
  unfold raisedRules
  split <;> rfl

/-- The inboxes of a simulation are as deep as the rules say, or deep enough for four frames from each node. -/
theorem toNat_frameDepth (s : Setup) : s.raisedRules.frameDepth.toNat = max s.rules.frameDepth.toNat s.frameDepth := by
  have hlast := s.rules.hosts.last.toNat_lt
  have husers := s.users.toNat_lt
  unfold raisedRules
  split
  · next hshallow =>
    have hfits : s.frameDepth < 2 ^ 64 := by
      unfold frameDepth IdRange.count
      omega
    rw [Nat.max_eq_right (Nat.le_of_lt hshallow)]
    exact UInt64.toNat_ofNat_of_lt' hfits
  · next hdeep => exact (Nat.max_eq_left (Nat.le_of_not_lt hdeep)).symm

/-- The inboxes of a simulation are deep enough for four frames from each node. -/
theorem frameDepth_le (s : Setup) : s.frameDepth ≤ s.raisedRules.frameDepth.toNat := by
  rw [toNat_frameDepth]
  exact Nat.le_max_right _ _

/-- The visitors are no hosts. -/
theorem contains_of_visitor (hroom : s.rules.hosts.last.toNat + s.users.toNat < 255) {u : NodeId}
    (hu : u ∈ s.visitorIds) : s.rules.hosts.contains u = false := by
  obtain ⟨k, hk, rfl⟩ := List.mem_map.mp hu
  obtain ⟨hfirst, hlast⟩ := List.mem_range'_1.mp hk
  have hnumber := NodeId.toNat_byte_ofNat (k := k) (by omega)
  rw [IdRange.contains, Bool.and_eq_false_iff]
  right
  rw [decide_eq_false_iff_not, UInt8.le_iff_toNat_le, hnumber]
  omega

/-- If there is room for the visitors, the nodes have distinct ids. -/
theorem nodup_nodeIds (hroom : s.rules.hosts.last.toNat + s.users.toNat < 255) : s.nodeIds.Nodup := by
  refine List.nodup_append.mpr ⟨IdRange.nodup_ids, ?_, ?_⟩
  · refine NodeId.nodup_map_ofNat List.nodup_range' fun k hk => ?_
    have hlt := (List.mem_range'_1.mp hk).2
    omega
  · rintro b hb u hu rfl
    exact Bool.false_ne_true ((contains_of_visitor hroom hu).symm.trans (IdRange.mem_ids_iff.mp hb))

/-- An accepted setup with any nodes at all puts a crowd on the floor. -/
theorem crowd_of_valid (valid : s.raisedRules.Valid)
    (fits : s.rules.sessionDuration.ms.toNat + s.rules.sessionGrace.ms.toNat < 2 ^ 64)
    (hroom : s.rules.hosts.last.toNat + s.users.toNat < 255)
    (hfree : ∀ id ∈ s.nodeIds, id.isReserved = false) : Crowd s.raisedRules s.visitorIds := by
  have hhosts : s.raisedRules.hosts = s.rules.hosts := by rw [raisedRules_eq]
  have hids : s.raisedRules.hosts.ids ++ s.visitorIds = s.nodeIds := by rw [hhosts, nodeIds]
  refine ⟨valid, ?_, ?_, ?_, ?_, ?_⟩
  · rw [hids]
    exact nodup_nodeIds hroom
  · rw [hids]
    exact hfree
  · intro g hg
    rw [Rules.isHost, hhosts]
    exact contains_of_visitor hroom hg
  · refine Nat.le_trans (Nat.le_of_eq ?_) s.frameDepth_le
    rw [frameDepth, hhosts, IdRange.ids, visitorIds, List.length_map, List.length_map, List.length_range',
      List.length_range', Nat.mul_comm]
  · refine ⟨_, (Rules.clientLimit_eq _).trans (if_pos ?_)⟩
    rw [raisedRules_eq]
    exact fits

end Setup

namespace Simulation

variable {lottery : Lottery Setup.strengthCount} {s : Setup} {sim : Simulation}

/-- A simulation that has been set up has fresh nodes under the rules of the setup, and nothing has happened. -/
theorem eq_of_ofSetup (accepted : ofSetupWith lottery s = .ok sim) :
    sim =
        { setup := { s with rules := s.raisedRules }
          floor := ⟨s.nodeIds.map (Node.fresh s.raisedRules), ⟨.zero⟩⟩
          strengths := s.strengths lottery
          tallies := ((s.nodeIds.map (Node.fresh s.raisedRules)).filter (·.machine.role = .admin)).map
            fun n => (n.id, {}) } ∧
      s.rules.hosts.last.toNat + s.users.toNat < 255 ∧
      ∀ id ∈ s.nodeIds, s.raisedRules.Valid ∧ id.isReserved = false := by
  unfold ofSetupWith at accepted
  split at accepted
  · cases accepted
  · next hroom =>
    split at accepted
    · cases accepted
    · split at accepted
      · cases accepted
      · next nodes hnodes =>
        obtain ⟨hfree, rfl⟩ := Node.mapM_ofRules_eq_ok_iff.mp hnodes
        exact ⟨(Except.ok.inj accepted).symm, Nat.lt_of_not_le hroom, hfree⟩

/-- The nodes of a simulation that has been set up are fresh ones. -/
theorem nodes_of_ofSetup (accepted : ofSetupWith lottery s = .ok sim) :
    sim.floor.nodes = s.nodeIds.map (Node.fresh s.raisedRules) ∧
      s.rules.hosts.last.toNat + s.users.toNat < 255 ∧
      ∀ id ∈ s.nodeIds, s.raisedRules.Valid ∧ id.isReserved = false := by
  obtain ⟨rfl, hroom, hfree⟩ := eq_of_ofSetup accepted
  exact ⟨rfl, hroom, hfree⟩

/-- One more tick is one after the others. -/
theorem steps_succ (n : Nat) (sim : Simulation) : steps (n + 1) sim = (steps n sim).step := by
  induction n generalizing sim with
  | zero => rfl
  | succ n ih => exact ih sim.step

/-- There is a report exactly if nothing has gone astray and the word holds how long the simulation took. -/
theorem report_eq_ok_iff {report : Report} : sim.report = .ok report ↔
    sim.fault = none ∧ sim.ticks * sim.setup.tick.toSpan.ms.toNat < 2 ^ 64 ∧
      report = sim.reportOver (.ofNat (sim.ticks * sim.setup.tick.toSpan.ms.toNat)) := by
  unfold Simulation.report Checked.mul
  cases sim.fault with
  | some fault => exact ⟨nofun, nofun⟩
  | none =>
    dsimp only
    split
    · next hfits =>
      rw [Checked.ok_bind]
      exact ⟨fun h => ⟨rfl, hfits, (Except.ok.inj h).symm⟩, fun h => congrArg Except.ok h.2.2.symm⟩
    · next hwide => exact ⟨nofun, fun h => absurd h.2.1 hwide⟩

/-- A tick leaves the radio as it is. -/
theorem step_radio (sim : Simulation) : sim.step.radio = sim.radio := rfl

/-- After a tick every node has settled. -/
theorem step_nodes (sim : Simulation) : sim.step.floor.nodes =
    sim.floor.nodes.map (sim.floor.settled sim.radio (sim.floor.clock.advance sim.setup.tick).now) :=
  sim.floor.round_nodes sim.setup.tick sim.radio

/-- What every round keeps of a floor and of what was said on it last, any number of ticks keep. -/
theorem steps_round {P : Floor → List Letter → Prop} {post : List Letter}
    (hround : ∀ {f f' : Floor} {post : List Letter} {now : Instant}, P f post →
      f'.nodes = f.nodes.map (f.settled sim.radio now) → P f' (f.post now))
    (h : P sim.floor post) (n : Nat) : (steps n sim).radio = sim.radio ∧ ∃ later, P (steps n sim).floor later := by
  induction n with
  | zero => exact ⟨rfl, post, h⟩
  | succ n ih =>
    obtain ⟨hradio, later, hlater⟩ := ih
    have hnodes := (steps n sim).step_nodes
    rw [hradio] at hnodes
    rw [steps_succ, step_radio]
    exact ⟨hradio, _, hround hlater hnodes⟩

end Simulation

end BoothFloor
