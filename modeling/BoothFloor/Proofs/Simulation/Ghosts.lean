import BoothFloor.Proofs.Floor.Accord
import BoothFloor.Proofs.Simulation.Lossless

/-!
# No ghosts

In a simulation no slot and no place in a queue is held by a visitor that has gone elsewhere, if a tick is
shorter than the time for an answer and no longer than the time for an offer, and the clock does not stop at
the largest instant, at which every deadline that lies beyond it falls due.
-/

namespace BoothFloor

namespace Clock

variable {c : Clock} {d : Duration} {span : Span}

/-- A clock that is advanced runs modulo the word. -/
theorem toNat_advance (c : Clock) (d : Duration) :
    (c.advance d).now.ms.toNat = (c.now.ms.toNat + d.wholeMillis) % 2 ^ 64 := by
  change (c.now.ms + UInt64.ofNat d.wholeMillis).toNat = _
  rw [UInt64.toNat_add, UInt64.toNat_ofNat', Nat.add_mod_mod]

/-- After a tick that is no longer than a span, no more than the span has passed. -/
theorem since_advance_le (h : d.wholeMillis ≤ span.ms.toNat) : (c.advance d).now.since c.now ≤ span := by
  refine UInt64.le_iff_toNat_le.mpr ?_
  rw [Instant.toNat_since, toNat_advance]
  omega

/-- After a tick that is shorter than a span, a deadline after the span has not come, unless the clock has come to
the largest instant. -/
theorem not_after_le_advance (h : d.wholeMillis < span.ms.toNat) (hlast : (c.advance d).now.ms.toNat ≠ 2 ^ 64 - 1) :
    ¬ c.now.after span ≤ (c.advance d).now := by
  intro hdue
  have hle : (c.now.after span).ms.toNat ≤ (c.advance d).now.ms.toNat := UInt64.le_iff_toNat_le.mp hdue
  have hnow := c.now.ms.toNat_lt
  have hspan := span.ms.toNat_lt
  rw [Instant.toNat_after] at hle
  rw [toNat_advance] at hle hlast
  simp only [UInt64.size] at hle
  omega

end Clock

namespace Floor

variable {r : Rules} {guests : List NodeId} {radio : Radio} {f : Floor} {post : List Letter} {p : Node} {u : NodeId}

/-- Whoever is on the list of a booth or in its queue deals with the booth, or has just taken leave of it. -/
theorem Accorded.no_ghost (h : f.Accorded r guests radio post) (crowd : Crowd r guests) (hp : p ∈ f.nodes)
    {booth : HostSnapshot}
    (hbooth : p.snapshot = .host booth) (hu : u ∈ booth.active ∨ u ∈ booth.waiting) :
    ∃ n ∈ f.nodes, ∃ visitor, n.snapshot = .visitor visitor ∧ visitor.id = u ∧
      (visitor.booth = some booth.id ∧ visitor.stage ∈ [Stage.connected, .waiting, .inUse] ∨
        ⟨u, booth.id, .exitRequest⟩ ∈ post) := by
  rw [Node.snapshot] at hbooth
  cases hmachine : p.machine with
  | visitor v =>
    rw [hmachine] at hbooth
    cases hbooth
  | host host =>
    rw [hmachine] at hbooth
    obtain rfl : host.snapshot = booth := Snapshot.host.inj hbooth
    have hreceives := h.receives p hp host hmachine
    have hguest : u ∈ guests := hu.elim
      (fun hactive => hreceives.registered (hreceives.orderly.active_registered u hactive))
      fun hwaits => hreceives.waiting hwaits
    obtain ⟨n, hn, rfl⟩ := h.exists_node (List.mem_append_right _ hguest)
    obtain ⟨v, hvisitor⟩ := (h.roles n hn).exists_visitor (crowd.guest _ hguest)
    obtain ⟨st, hstands, haccord⟩ := h.accord n hn v hvisitor p hp host hmachine
    have hst : st ≠ .outside := by
      rintro rfl
      exact hu.elim hstands.1 hstands.2
    have hid : p.id = host.snapshot.id := by
      rw [Node.id, hmachine]
      rfl
    refine ⟨n, hn, v.snapshot, ?_, ?_, ?_⟩
    · rw [Node.snapshot, hvisitor]
      rfl
    · rw [Node.id, hvisitor]
      rfl
    · rw [hid] at haccord
      rcases haccord.no_ghost hst with hstance | hexit
      · have hbooth := Visitor.booth?_of_stance hstance
        refine .inl ⟨hbooth, ?_⟩
        have hstage := Visitor.stage_ne_scanning hbooth
        change v.stage ∈ _
        cases hcase : v.stage <;> simp [hcase] at hstage ⊢
      · exact .inr (Letter.mem_sentBy.mp (mem_dealings.mp hexit).1)

end Floor

namespace Simulation

variable {lottery : Lottery Setup.strengthCount} {s : Setup} {sim : Simulation} {r : Rules} {guests : List NodeId}
  {post : List Letter}

/-- No tick changes the setup. -/
theorem steps_setup (n : Nat) (sim : Simulation) : (steps n sim).setup = sim.setup := by
  induction n generalizing sim with
  | zero => rfl
  | succ n ih => exact ih sim.step

/-- What the clock reads after some ticks, modulo the word. -/
theorem steps_clock (n : Nat) (sim : Simulation) : (steps n sim).floor.clock.now.ms.toNat =
    (sim.floor.clock.now.ms.toNat + n * sim.setup.tick.wholeMillis) % 2 ^ 64 := by
  induction n with
  | zero =>
    rw [Nat.zero_mul, Nat.add_zero]
    exact (Nat.mod_eq_of_lt sim.floor.clock.now.ms.toNat_lt).symm
  | succ n ih =>
    rw [steps_succ]
    change ((steps n sim).floor.clock.advance (steps n sim).setup.tick).now.ms.toNat = _
    rw [Clock.toNat_advance, ih, steps_setup, Nat.mod_add_mod, Nat.succ_mul, Nat.add_assoc]

/-- A tick that is short enough leaves the floor in accord. -/
theorem step_accorded (crowd : Crowd r guests) (hroom : guests.length ≤ r.maxUsers.toNat)
    (hregister : sim.setup.tick.wholeMillis < r.registerTimeout.ms.toNat)
    (hready : sim.setup.tick.wholeMillis ≤ r.queueReadyTimeout.ms.toNat)
    (hlast : sim.step.floor.clock.now.ms.toNat ≠ 2 ^ 64 - 1) (h : sim.floor.Accorded r guests sim.radio post) :
    sim.step.floor.Accorded r guests sim.radio (sim.floor.post (sim.floor.clock.advance sim.setup.tick).now) :=
  h.round crowd (fun _ _ => rfl) hroom (Clock.not_after_le_advance hregister hlast) (Clock.since_advance_le hready)
    sim.step_nodes rfl

/-- After any number of ticks that are short enough the floor is in accord. -/
theorem steps_accorded (crowd : Crowd r guests) (hroom : guests.length ≤ r.maxUsers.toNat)
    (hregister : sim.setup.tick.wholeMillis < r.registerTimeout.ms.toNat)
    (hready : sim.setup.tick.wholeMillis ≤ r.queueReadyTimeout.ms.toNat) (n : Nat)
    (hlast : ∀ k ≤ n, (steps k sim).floor.clock.now.ms.toNat ≠ 2 ^ 64 - 1)
    (h : sim.floor.Accorded r guests sim.radio post) :
    (steps n sim).radio = sim.radio ∧ ∃ later, (steps n sim).floor.Accorded r guests sim.radio later := by
  induction n with
  | zero => exact ⟨rfl, post, h⟩
  | succ n ih =>
    obtain ⟨hradio, later, hlater⟩ := ih fun k hk => hlast k (Nat.le_succ_of_le hk)
    have hnow := hlast (n + 1) (Nat.le_refl _)
    rw [steps_succ] at hnow ⊢
    rw [← hradio] at hlater ⊢
    rw [← steps_setup n sim] at hregister hready
    exact ⟨rfl, _, step_accorded crowd hroom hregister hready hnow hlater⟩

/-- An accepted setup with any nodes at all begins in accord. -/
theorem exists_accorded_of_ofSetup
    (fits : s.rules.sessionDuration.ms.toNat + s.rules.sessionGrace.ms.toNat < 2 ^ 64)
    (accepted : ofSetupWith lottery s = .ok sim) (hnodes : sim.floor.nodes ≠ []) :
    Crowd s.raisedRules s.visitorIds ∧ sim.floor.Accorded s.raisedRules s.visitorIds sim.radio [] := by
  obtain ⟨crowd, -⟩ := exists_lossless_of_ofSetup fits accepted hnodes
  obtain ⟨hfresh, -, -⟩ := nodes_of_ofSetup accepted
  refine ⟨crowd, Floor.accorded_fresh s.raisedRules s.visitorIds sim.radio ?_⟩
  have hhosts : s.raisedRules.hosts = s.rules.hosts := by rw [Setup.raisedRules_eq]
  rw [hfresh, hhosts, Setup.nodeIds]

/-- After the next tick everyone inside a booth or in its queue is connected with the booth, waits for it or is
inside, unless it has taken leave of the booth in that very tick. -/
def NoGhosts (sim : Simulation) : Prop :=
  let later := sim.step
  let air := (sim.floor.round sim.setup.tick sim.radio).2.transmissions
  ∀ host ∈ later.floor.nodes, ∀ booth, host.snapshot = .host booth → ∀ u, u ∈ booth.active ∨ u ∈ booth.waiting →
    ∃ node ∈ later.floor.nodes, ∃ visitor, node.snapshot = .visitor visitor ∧ visitor.id = u ∧
      (visitor.booth = some booth.id ∧ visitor.stage ∈ [Stage.connected, .waiting, .inUse] ∨
        ∃ leave ∈ [Message.exitRequest, .queueLeave], ⟨u, booth.id, Wire.encode leave⟩ ∈ air)

/-- A floor in accord after a tick has no ghosts. -/
theorem noGhosts_of_accorded (crowd : Crowd r guests)
    (h : sim.step.floor.Accorded r guests sim.radio (sim.floor.post (sim.floor.clock.advance sim.setup.tick).now)) :
    sim.NoGhosts := by
  intro host hhost booth hbooth u hu
  obtain ⟨node, hnode, visitor, hsnapshot, hid, hcase⟩ := h.no_ghost crowd hhost hbooth hu
  refine ⟨node, hnode, visitor, hsnapshot, hid, hcase.imp_right fun hexit => ⟨.exitRequest, List.mem_cons_self, ?_⟩⟩
  rw [sim.floor.round_transmissions]
  exact List.mem_map_of_mem hexit

/-- No slot and no place in a queue is ever held by a visitor that has gone elsewhere. Let there be no more
visitors than a booth lists, let a tick be shorter than the time for an answer to a registration and no longer
than the time for an offer, and let the clock not have come to the largest instant. Then there are no ghosts
after any tick. -/
theorem steps_no_ghosts (lottery : Lottery Setup.strengthCount) (s : Setup)
    (fits : s.rules.sessionDuration.ms.toNat + s.rules.sessionGrace.ms.toNat < 2 ^ 64)
    (users : s.users.toNat ≤ s.rules.maxUsers.toNat)
    (register : s.tick.wholeMillis < s.rules.registerTimeout.ms.toNat)
    (ready : s.tick.wholeMillis ≤ s.rules.queueReadyTimeout.ms.toNat) (sim : Simulation)
    (accepted : ofSetupWith lottery s = .ok sim) (n : Nat)
    (clock : ∀ k ≤ n + 1, (steps k sim).floor.clock.now.ms.toNat ≠ 2 ^ 64 - 1) : (steps n sim).NoGhosts := by
  by_cases hnil : sim.floor.nodes = []
  · intro host hhost
    rw [← steps_succ, steps_nodes_of_nil hnil] at hhost
    cases hhost
  obtain ⟨crowd, hfresh⟩ := exists_accorded_of_ofSetup fits accepted hnil
  have hroom : s.visitorIds.length ≤ s.raisedRules.maxUsers.toNat := by
    rw [Setup.raisedRules_eq, Setup.visitorIds, List.length_map, List.length_range']
    exact users
  have htick : sim.setup.tick = s.tick := by rw [(eq_of_ofSetup accepted).1]
  have hregister : sim.setup.tick.wholeMillis < s.raisedRules.registerTimeout.ms.toNat := by
    rw [htick, Setup.raisedRules_eq]
    exact register
  have hready : sim.setup.tick.wholeMillis ≤ s.raisedRules.queueReadyTimeout.ms.toNat := by
    rw [htick, Setup.raisedRules_eq]
    exact ready
  obtain ⟨hradio, post, haccorded⟩ :=
    steps_accorded crowd hroom hregister hready n (fun k hk => clock k (Nat.le_succ_of_le hk)) hfresh
  have hnow := clock (n + 1) (Nat.le_refl _)
  rw [steps_succ] at hnow
  rw [← hradio] at haccorded
  rw [← steps_setup n sim] at hregister hready
  exact noGhosts_of_accorded crowd (step_accorded crowd hroom hregister hready hnow haccorded)

/-- After six ticks of `oneBooth` two visitors are inside and the third one is in the queue; it waits for the booth. -/
theorem steps_no_ghosts_oneBooth :
    oneBooth.rules.sessionDuration.ms.toNat + oneBooth.rules.sessionGrace.ms.toNat < 2 ^ 64 ∧
      oneBooth.users.toNat ≤ oneBooth.rules.maxUsers.toNat ∧
      oneBooth.tick.wholeMillis < oneBooth.rules.registerTimeout.ms.toNat ∧
      oneBooth.tick.wholeMillis ≤ oneBooth.rules.queueReadyTimeout.ms.toNat ∧
      ∃ sim, ofSetup oneBooth = .ok sim ∧ (∀ k ≤ 6, (steps k sim).floor.clock.now.ms.toNat ≠ 2 ^ 64 - 1) ∧
        (∃ host ∈ (steps 6 sim).floor.nodes, ∃ booth, host.snapshot = .host booth ∧
          booth.active = [⟨2⟩, ⟨3⟩] ∧ booth.waiting = [⟨4⟩]) ∧
        (steps 5 sim).NoGhosts := by
  have hfits : oneBooth.rules.sessionDuration.ms.toNat + oneBooth.rules.sessionGrace.ms.toNat < 2 ^ 64 := by
    decide
  have hview : (match ofSetup oneBooth with
      | .ok sim => ((steps 6 sim).floor.nodes.map Node.snapshot).take 1
      | .error _ => []) =
      [.host {
        id := ⟨1⟩, status := ⟨⟨1⟩, 2, 2, 1⟩, description := "Booth 1 - Pop-up Store Experience",
        active := [⟨2⟩, ⟨3⟩], waiting := [⟨4⟩], registered := [⟨2⟩, ⟨3⟩], offer := none, broadcasting := true }] := by
    decide +kernel
  cases hsim : ofSetup oneBooth with
  | error e =>
    rw [hsim] at hview
    cases hview
  | ok sim =>
    rw [hsim] at hview
    dsimp only at hview
    have hclock : ∀ k ≤ 6, (steps k sim).floor.clock.now.ms.toNat ≠ 2 ^ 64 - 1 := by
      intro k hk
      rw [steps_clock, (eq_of_ofSetup hsim).1]
      change (0 + k * 200) % 2 ^ 64 ≠ _
      omega
    obtain ⟨host, hhost, hbooth⟩ := List.mem_map.mp (List.mem_of_mem_take (hview ▸ List.mem_cons_self))
    exact ⟨hfits, by decide, by decide, by decide, sim, rfl, hclock, ⟨host, hhost, _, hbooth, rfl, rfl⟩,
      steps_no_ghosts Setup.stream oneBooth hfits (by decide) (by decide) (by decide) sim hsim 5 hclock⟩

/-- One visitor and one booth. The clock comes to the largest instant with the fifteenth tick, at which the visitor
has waited for the answer to its registration for less than the time that it allows. -/
def lastInstant : Setup where
  rules :=
    { Rules.brisk with
      hosts := ⟨1, 1⟩
      boothCapacity := 1
      maxUsers := 1
      selectionDwell := ⟨13527612320720337851⟩
      connectTimeout := ⟨3689348814741910323⟩
      registerTimeout := ⟨1229782938247303442⟩
      registerRetryLimit := 0
      queueReadyTimeout := ⟨1229782938247303441⟩
      sessionDuration := ⟨9223372036854775808⟩
      sessionGrace := ⟨0⟩ }
  users := 1
  duration := .ofMillis 1
  tick := .ofMillis 1229782938247303441
  seed := 7

/-- At the largest instant every deadline beyond it is due. The visitor of `lastInstant` gives up there, while the
booth lets it in and holds the slot for it. -/
theorem steps_ghost_lastInstant :
    lastInstant.rules.sessionDuration.ms.toNat + lastInstant.rules.sessionGrace.ms.toNat < 2 ^ 64 ∧
      lastInstant.users.toNat ≤ lastInstant.rules.maxUsers.toNat ∧
      1 ≤ lastInstant.tick.wholeMillis ∧
      lastInstant.tick.wholeMillis < lastInstant.rules.registerTimeout.ms.toNat ∧
      lastInstant.tick.wholeMillis ≤ lastInstant.rules.queueReadyTimeout.ms.toNat ∧
      ∃ sim, ofSetup lastInstant = .ok sim ∧ ¬ (steps 14 sim).NoGhosts := by
  refine ⟨by decide, by decide, by decide, by decide, by decide, ?_⟩
  have hview : (match ofSetup lastInstant with
      | .ok sim => (steps 14 sim).step.floor.nodes.map Node.snapshot
      | .error _ => []) =
      [.host {
        id := ⟨1⟩, status := ⟨⟨1⟩, 1, 1, 0⟩, description := "Booth 1 - Pop-up Store Experience",
        active := [⟨2⟩], waiting := [], registered := [⟨2⟩], offer := none, broadcasting := true },
      .visitor {
        id := ⟨2⟩, stage := .scanning, booth := none, position := 0, total := 0, sessionStart := none,
        visits := [] }] := by
    decide +kernel
  have hsources : (match ofSetup lastInstant with
      | .ok sim =>
        ((steps 14 sim).floor.round (steps 14 sim).setup.tick (steps 14 sim).radio).2.transmissions.map (·.source)
      | .error _ => []) = [⟨1⟩] := by decide +kernel
  cases hsim : ofSetup lastInstant with
  | error e =>
    rw [hsim] at hview
    cases hview
  | ok sim =>
    rw [hsim] at hview hsources
    dsimp only at hview hsources
    refine ⟨sim, rfl, fun hghosts => ?_⟩
    obtain ⟨host, others, hnodes, hbooth, -⟩ := List.map_eq_cons_iff.mp hview
    obtain ⟨node, hnode, visitor, hvisitor, -, hcase⟩ :=
      hghosts host (hnodes ▸ List.mem_cons_self) _ hbooth ⟨2⟩ (.inl List.mem_cons_self)
    rcases hcase with ⟨hown, -⟩ | ⟨leave, -, hsent⟩
    · have hshown : node.snapshot ∈ (steps 14 sim).step.floor.nodes.map Node.snapshot := List.mem_map_of_mem hnode
      rw [hview, hvisitor] at hshown
      rcases List.mem_cons.mp hshown with hhost | hguest
      · cases hhost
      · cases List.mem_singleton.mp hguest
        cases hown
    · have hsource := List.mem_map_of_mem (f := Transmission.source) hsent
      rw [hsources] at hsource
      cases List.mem_singleton.mp hsource

end Simulation

end BoothFloor
