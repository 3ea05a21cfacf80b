import BoothFloor.Proofs.Floor.Lossless
import BoothFloor.Proofs.Simulation.Capacity

/-!
# A simulation loses nothing

The inboxes of a simulation have room for four frames from every node of the floor, and that is enough for
what any node is sent in one tick. So no frame is ever overwritten, and as every frame can be read, none is
dropped.
-/

namespace BoothFloor

namespace Simulation

variable {lottery : Lottery Setup.strengthCount} {s : Setup} {sim : Simulation}

/-- After any number of ticks nothing has been lost on the floor of a simulation. -/
theorem steps_lossless {r : Rules} {guests : List NodeId} (crowd : Crowd r guests) {post : List Letter}
    (h : sim.floor.Lossless r guests sim.radio post) (n : Nat) :
    (steps n sim).radio = sim.radio ∧ ∃ later, (steps n sim).floor.Lossless r guests sim.radio later :=
  steps_round (fun hkept hnodes => hkept.round crowd (fun _ _ => rfl) hnodes) h n

/-- An accepted setup with any nodes at all begins with nothing lost. -/
theorem exists_lossless_of_ofSetup
    (fits : s.rules.sessionDuration.ms.toNat + s.rules.sessionGrace.ms.toNat < 2 ^ 64)
    (accepted : ofSetupWith lottery s = .ok sim) (hnodes : sim.floor.nodes ≠ []) :
    Crowd s.raisedRules s.visitorIds ∧ sim.floor.Lossless s.raisedRules s.visitorIds sim.radio [] := by
  obtain ⟨crowd, -⟩ := exists_crowd_of_ofSetup fits accepted hnodes
  obtain ⟨hfresh, -, -⟩ := nodes_of_ofSetup accepted
  refine ⟨crowd, Floor.lossless_fresh s.raisedRules s.visitorIds sim.radio ?_⟩
  have hhosts : s.raisedRules.hosts = s.rules.hosts := by rw [Setup.raisedRules_eq]
  rw [hfresh, hhosts, Setup.nodeIds]

/-- The radio of a simulation loses nothing. However many ticks have passed, no node has overwritten or
dropped a frame; and in the next tick every node is sent four frames at most for each node of the floor, all
of which can be read. -/
theorem steps_lose_nothing (lottery : Lottery Setup.strengthCount) (s : Setup)
    (fits : s.rules.sessionDuration.ms.toNat + s.rules.sessionGrace.ms.toNat < 2 ^ 64) (sim : Simulation)
    (accepted : ofSetupWith lottery s = .ok sim) (n : Nat) :
    let later := steps n sim
    let air := (later.floor.round later.setup.tick later.radio).2.transmissions
    (∀ node ∈ later.floor.nodes, node.stats.framesOverwritten = 0 ∧ node.stats.counters.framesDropped = 0 ∧
      air.countP (·.addresses node.id) ≤ 4 * later.floor.nodes.length) ∧
      ∀ t ∈ air, ∃ msg, Wire.decode t.bytes (s.rules.hosts.roleOf t.source) = .ok msg := by
  intro later air
  have hair : air = (later.floor.post (later.floor.clock.advance later.setup.tick).now).map Letter.transmission :=
    later.floor.round_transmissions later.setup.tick later.radio
  by_cases hnil : sim.floor.nodes = []
  · have hempty : later.floor.nodes = [] := steps_nodes_of_nil hnil n
    rw [hair, Floor.post, hempty]
    exact ⟨fun _ hnode => absurd hnode List.not_mem_nil, fun _ ht => absurd ht List.not_mem_nil⟩
  obtain ⟨crowd, hfresh⟩ := exists_lossless_of_ofSetup fits accepted hnil
  obtain ⟨-, post, hlossless⟩ := steps_lossless crowd hfresh n
  have hroles : s.raisedRules.hosts = s.rules.hosts := by rw [Setup.raisedRules_eq]
  have hlength : later.floor.nodes.length = s.raisedRules.hosts.ids.length + s.visitorIds.length := by
    rw [← List.length_append, ← hlossless.ids, List.length_map]
  constructor
  · intro node hnode
    obtain ⟨hoverwritten, hdropped⟩ := hlossless.kept node hnode
    refine ⟨hoverwritten, hdropped, ?_⟩
    rw [hair, List.countP_map, hlength]
    exact hlossless.countP_meant_le_room crowd (fun _ _ => rfl) hnode _
  · intro t ht
    rw [hair] at ht
    obtain ⟨l, hl, rfl⟩ := List.mem_map.mp ht
    have hread := Wire.decode_encode_append (hlossless.speech_round _ l hl) []
    rw [List.append_nil, hroles] at hread
    exact ⟨_, hread⟩

/-- After six ticks of `oneBooth` nothing is lost, though the host has been sent frames all the while. -/
theorem steps_lose_nothing_oneBooth :
    oneBooth.rules.sessionDuration.ms.toNat + oneBooth.rules.sessionGrace.ms.toNat < 2 ^ 64 ∧
      ∃ sim, ofSetup oneBooth = .ok sim ∧ ∃ host ∈ (steps 6 sim).floor.nodes,
        host.stats.counters.framesReceived = 12 ∧ host.stats.framesOverwritten = 0 ∧
          host.stats.counters.framesDropped = 0 := by
  have hfits : oneBooth.rules.sessionDuration.ms.toNat + oneBooth.rules.sessionGrace.ms.toNat < 2 ^ 64 := by
    decide
  have hview : (match ofSetup oneBooth with
      | .ok sim => ((steps 6 sim).floor.nodes.map fun node => node.stats.counters.framesReceived)
      | .error _ => []) = [12, 4, 4, 5] := by decide +kernel
  cases hsim : ofSetup oneBooth with
  | error e =>
    rw [hsim] at hview
    cases hview
  | ok sim =>
    rw [hsim] at hview
    dsimp only at hview
    have hmem : 12 ∈ (steps 6 sim).floor.nodes.map fun node => node.stats.counters.framesReceived :=
      hview ▸ List.mem_cons_self
    obtain ⟨host, hhost, hreceived⟩ := List.mem_map.mp hmem
    obtain ⟨hoverwritten, hdropped, -⟩ := (steps_lose_nothing Setup.stream oneBooth hfits sim hsim 6).1 host hhost
    exact ⟨hfits, sim, rfl, host, hhost, hreceived, hoverwritten, hdropped⟩

end Simulation

end BoothFloor
