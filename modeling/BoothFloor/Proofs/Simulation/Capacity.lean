import BoothFloor.Proofs.Floor.Sessions
import BoothFloor.Proofs.Simulation.Setup

/-!
# The capacity of a booth, seen from the floor

In a simulation no booth is ever used by more visitors than it has slots, whatever the visitors
themselves believe: whoever is inside a booth at the end of a tick was on the list of its host one tick
before, and the host keeps that list within its capacity.
-/

namespace BoothFloor

/-- Whether a snapshot is that of a visitor inside booth `b`. -/
def Snapshot.isInUseAt (b : NodeId) : Snapshot → Bool
  | host _ => false
  | visitor v => v.stage = .inUse ∧ v.booth = some b

/-- A visitor whose snapshot shows it inside a booth is so. -/
theorem Visitor.inUse_of_snapshot {v : Visitor} {b : NodeId}
    (h : Snapshot.isInUseAt b (.visitor v.snapshot) = true) : ∃ start, v.phase = .inUse b start := by
  obtain ⟨hstage, hbooth⟩ : v.phase.stage = .inUse ∧ v.phase.booth? = some b := of_decide_eq_true h
  cases hphase : v.phase with
  | inUse booth start =>
    rw [hphase] at hbooth
    obtain rfl := Option.some.inj hbooth
    exact ⟨start, rfl⟩
  | _ =>
    rw [hphase] at hstage
    cases hstage

namespace Floor

variable {r : Rules} {guests : List NodeId} {radio : Radio} {f : Floor} {post : List Letter} {b u : NodeId}

/-- Whoever is inside a booth is on the list that its host shows. -/
theorem Inside.exists_snapshot (hin : f.Inside b u) : ∃ n ∈ f.nodes, ∃ booth, n.snapshot = .host booth ∧
    booth.id = b ∧ u ∈ booth.active := by
  obtain ⟨n, hn, h, hmachine, hid, hu⟩ := hin
  rw [Node.id, hmachine] at hid
  refine ⟨n, hn, h.snapshot, ?_, hid, hu⟩
  rw [Node.snapshot, hmachine]
  rfl

namespace Lockstep

/-- Those who are inside the booth of a host are on its list. -/
theorem mem_activeUsers (h : f.Lockstep r guests radio post) (crowd : Crowd r guests) {n : Node}
    (hn : n ∈ f.nodes) {host : Host} (hmachine : n.machine = .host host) (hin : f.Inside n.id u) :
    u ∈ host.booth.activeUsers := by
  obtain ⟨n', hn', host', hmachine', hid, hu⟩ := hin
  obtain rfl := List.inj_on_of_nodup_map (h.distinct crowd) hn' hn hid
  obtain rfl := Machine.host.inj (hmachine'.symm.trans hmachine)
  exact hu

/-- Between two rounds no more users are inside a booth than it has slots. -/
theorem length_le_capacity (h : f.Lockstep r guests radio post) (crowd : Crowd r guests) {users : List NodeId}
    (hdistinct : users.Nodup) (hin : ∀ u ∈ users, f.Inside b u) :
    users.length ≤ r.boothCapacity.toNat := by
  cases users with
  | nil => exact Nat.zero_le _
  | cons first rest =>
    obtain ⟨n, hn, host, hmachine, rfl, -⟩ := hin first List.mem_cons_self
    have hrole := (h.roles n hn).host hmachine
    have hlisted : first :: rest ⊆ host.booth.activeUsers :=
      fun u hu => h.mem_activeUsers crowd hn hmachine (hin u hu)
    have hlength := (List.subperm_of_subset hdistinct hlisted).length_le
    rw [Booth.length_activeUsers] at hlength
    have hcapacity := hrole.orderly.active_le
    rw [hrole.capacity] at hcapacity
    exact Nat.le_trans hlength hcapacity

end Lockstep

end Floor

namespace Simulation

variable {lottery : Lottery Setup.strengthCount} {s : Setup} {sim : Simulation}

/-- After any number of ticks, the floor of a simulation is between two rounds. -/
theorem steps_lockstep {r : Rules} {guests : List NodeId} (crowd : Crowd r guests) {post : List Letter}
    (h : sim.floor.Lockstep r guests sim.radio post) (n : Nat) :
    (steps n sim).radio = sim.radio ∧ ∃ later, (steps n sim).floor.Lockstep r guests sim.radio later :=
  steps_round (fun hkept hnodes => hkept.round crowd (fun _ _ => rfl) hnodes) h n

/-- Where there are no nodes, there never are any. -/
theorem steps_nodes_of_nil (hnil : sim.floor.nodes = []) (n : Nat) : (steps n sim).floor.nodes = [] := by
  induction n with
  | zero => exact hnil
  | succ n ih =>
    rw [steps_succ, step_nodes, ih]
    rfl

/-- Whoever looks inside a booth after a tick was on the list of its host before the tick. -/
theorem inside_of_snapshot {r : Rules} {guests : List NodeId} {post : List Letter}
    (h : sim.floor.Lockstep r guests sim.radio post) {guest : Node} (hmem : guest ∈ sim.step.floor.nodes)
    {b : NodeId} (hinUse : guest.snapshot.isInUseAt b = true) : sim.floor.Inside b guest.id := by
  rw [step_nodes] at hmem
  obtain ⟨before, hbefore, rfl⟩ := List.mem_map.mp hmem
  rw [Floor.settled_id]
  rw [Node.snapshot] at hinUse
  cases hmachine : (sim.floor.settled sim.radio (sim.floor.clock.advance sim.setup.tick).now before).machine with
  | host host =>
    rw [hmachine] at hinUse
    cases hinUse
  | visitor v =>
    rw [hmachine] at hinUse
    obtain ⟨start, hphase⟩ := Visitor.inUse_of_snapshot hinUse
    obtain ⟨v', hv', rfl⟩ := Floor.visitor_of_settled hmachine
    exact h.inside_of_inUse (fun _ _ => rfl) hbefore hv' hphase

/-- An accepted setup with any nodes at all begins between two rounds, with nothing said so far. -/
theorem exists_crowd_of_ofSetup
    (fits : s.rules.sessionDuration.ms.toNat + s.rules.sessionGrace.ms.toNat < 2 ^ 64)
    (accepted : ofSetupWith lottery s = .ok sim) (hnodes : sim.floor.nodes ≠ []) :
    Crowd s.raisedRules s.visitorIds ∧ sim.floor.Lockstep s.raisedRules s.visitorIds sim.radio [] := by
  obtain ⟨hfresh, hroom, hfree⟩ := nodes_of_ofSetup accepted
  have hids : s.nodeIds ≠ [] := by
    rintro hnil
    rw [hfresh, hnil] at hnodes
    exact hnodes rfl
  obtain ⟨id, hid⟩ := List.exists_mem_of_ne_nil _ hids
  have hhosts : s.raisedRules.hosts = s.rules.hosts := by rw [Setup.raisedRules_eq]
  refine ⟨?_, Floor.lockstep_fresh s.raisedRules s.visitorIds sim.radio ?_⟩
  · exact Setup.crowd_of_valid (hfree id hid).1 fits hroom fun id hid => (hfree id hid).2
  · rw [hfresh, hhosts, Setup.nodeIds]

/-- However many ticks a simulation takes, under whichever rules and whatever is drawn from whichever seed: after each
of them at most as many visitors are inside a booth as it has slots, and each of them was on the list of the booth's
host one tick before. -/
theorem steps_inUse_le_capacity (lottery : Lottery Setup.strengthCount) (s : Setup)
    (fits : s.rules.sessionDuration.ms.toNat + s.rules.sessionGrace.ms.toNat < 2 ^ 64) (sim : Simulation)
    (accepted : ofSetupWith lottery s = .ok sim) (n : Nat) (b : NodeId) :
    let inside := (steps (n + 1) sim).floor.nodes.filter (·.snapshot.isInUseAt b)
    inside.length ≤ s.rules.boothCapacity.toNat ∧
      ∀ guest ∈ inside, ∃ host ∈ (steps n sim).floor.nodes, ∃ booth, host.snapshot = .host booth ∧
        booth.id = b ∧ guest.id ∈ booth.active := by
  intro inside
  by_cases hnil : sim.floor.nodes = []
  · have hnone : inside = [] := by
      have hempty := steps_nodes_of_nil hnil (n + 1)
      simp only [inside, hempty, List.filter_nil]
    rw [hnone]
    exact ⟨Nat.zero_le _, fun _ hguest => absurd hguest List.not_mem_nil⟩
  obtain ⟨crowd, hfresh⟩ := exists_crowd_of_ofSetup fits accepted hnil
  obtain ⟨hradio, post, hbefore⟩ := steps_lockstep crowd hfresh n
  obtain ⟨-, later, hafter⟩ := steps_lockstep crowd hfresh (n + 1)
  have hinside : ∀ guest ∈ inside, (steps n sim).floor.Inside b guest.id := by
    intro guest hguest
    obtain ⟨hmem, hinUse⟩ := List.mem_filter.mp hguest
    rw [steps_succ] at hmem
    rw [← hradio] at hbefore
    exact inside_of_snapshot hbefore hmem hinUse
  constructor
  · have hdistinct : (inside.map Node.id).Nodup :=
      (hafter.distinct crowd).sublist (List.filter_sublist.map _)
    have hcapacity : s.raisedRules.boothCapacity = s.rules.boothCapacity := by rw [Setup.raisedRules_eq]
    have hlength := hbefore.length_le_capacity (b := b) crowd hdistinct fun u hu => by
      obtain ⟨guest, hguest, rfl⟩ := List.mem_map.mp hu
      exact hinside guest hguest
    rw [List.length_map, hcapacity] at hlength
    exact hlength
  · intro guest hguest
    exact (hinside guest hguest).exists_snapshot

/-- Three visitors and one booth with two slots. -/
def oneBooth : Setup where
  rules := { Rules.brisk with hosts := ⟨1, 1⟩ }
  users := 3
  duration := .ofMillis 2000
  tick := .ofMillis 200
  seed := 7

/-- After six ticks two of the visitors are inside, and both were on the list of the host before. -/
theorem steps_inUse_le_capacity_oneBooth :
    oneBooth.rules.sessionDuration.ms.toNat + oneBooth.rules.sessionGrace.ms.toNat < 2 ^ 64 ∧
      ∃ sim, ofSetup oneBooth = .ok sim ∧
        ((steps 6 sim).floor.nodes.filter (·.snapshot.isInUseAt ⟨1⟩)).map Node.id = [⟨2⟩, ⟨3⟩] ∧
        ((steps 6 sim).floor.nodes.filter (·.snapshot.isInUseAt ⟨1⟩)).length ≤ 2 ∧
        ∀ u ∈ [(⟨2⟩ : NodeId), ⟨3⟩], ∃ host ∈ (steps 5 sim).floor.nodes, ∃ booth,
          host.snapshot = .host booth ∧ booth.id = ⟨1⟩ ∧ u ∈ booth.active := by
  have hfits : oneBooth.rules.sessionDuration.ms.toNat + oneBooth.rules.sessionGrace.ms.toNat < 2 ^ 64 := by
    decide
  have hview : (match ofSetup oneBooth with
      | .ok sim => ((steps 6 sim).floor.nodes.filter (·.snapshot.isInUseAt ⟨1⟩)).map Node.id
      | .error _ => []) = [⟨2⟩, ⟨3⟩] := by decide +kernel
  cases hsim : ofSetup oneBooth with
  | error e =>
    rw [hsim] at hview
    cases hview
  | ok sim =>
    rw [hsim] at hview
    dsimp only at hview
    obtain ⟨hbound, hlisted⟩ := steps_inUse_le_capacity Setup.stream oneBooth hfits sim hsim 5 ⟨1⟩
    refine ⟨hfits, sim, rfl, hview, hbound, fun u hu => ?_⟩
    rw [← hview] at hu
    obtain ⟨guest, hguest, rfl⟩ := List.mem_map.mp hu
    exact hlisted guest hguest

end Simulation

end BoothFloor
