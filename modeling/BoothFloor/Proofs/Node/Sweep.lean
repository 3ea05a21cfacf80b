import BoothFloor.Proofs.Host.Overdue
import BoothFloor.Proofs.Node.History

/-!
# The sweeps of a node

The tick is the last input of a step, so what a sweep leaves behind is what the step leaves behind: whatever
has happened to the node of a host, whatever its clock reads and whatever it is told before the tick, after a
step that is due for a sweep nothing is overdue. A step alerts exactly those whose sessions its sweep ends.
-/

namespace BoothFloor

namespace Node

variable {id : NodeId} {r : Rules} {n : Node} {now : Instant} {past : List Happening}

/-- The host in a node's step has been given the history of the node and the inputs of the step so far. -/
theorem host_given (hhost : r.isHost id = true) (past : List Happening) (events : List (Moment × Input)) :
    ((fresh r id).live past).machine.run events =
      (.host ((Host.ofRules id r).run ((fresh r id).history past ++ events)).1,
        (((Host.ofRules id r).run ((fresh r id).history past)).1.run events).2) := by
  rw [((fresh r id).live_run past).1, machine_fresh_of_host hhost, Machine.run_host, Machine.run_host,
    Host.run_append]

/-- The host of a node during its next step, when some inputs of the step have been handed over. -/
def hostDuring (r : Rules) (id : NodeId) (past : List Happening) (now : Instant) (part : List Input) : Host :=
  ((Host.ofRules id r).run ((fresh r id).history past ++ part.map (((fresh r id).live past).moment now, ·))).1

/-- The host during a step is what the program in the node has become. -/
theorem run_hostDuring (hhost : r.isHost id = true) (past : List Happening) (now : Instant) (part : List Input) :
    let n := (fresh r id).live past
    (n.machine.run (part.map (n.moment now, ·))).1 = .host (hostDuring r id past now part) :=
  congrArg Prod.fst (host_given hhost past _)

/-- The booth of the host during a step is in order. -/
theorem orderly_hostDuring (r : Rules) (id : NodeId) (past : List Happening) (now : Instant) (part : List Input) :
    (hostDuring r id past now part).booth.Orderly :=
  Host.run_orderly (Booth.orderly_ofRules id r) _

/-- The host during a step goes by the rules of the node. -/
theorem rules_hostDuring (r : Rules) (id : NodeId) (past : List Happening) (now : Instant) (part : List Input) :
    (hostDuring r id past now part).rules = r :=
  Host.run_rules (Host.ofRules id r) _

/-- A turn of a host's node is that of its inputs before the tick and then the reaction to the tick. -/
theorem run_events_host (hhost : r.isHost id = true) (past : List Happening) (now : Instant) :
    let n := (fresh r id).live past
    let given := ((Host.ofRules id r).run ((fresh r id).history past)).1
    let last := (hostDuring r id past now (n.beforeTick now)).react (n.moment now) .tick
    n.machine.run (n.events now) =
      (.host last.1, (given.run ((n.beforeTick now).map (n.moment now, ·))).2 ++ last.2) := by
  intro n given last
  rw [events, inputs_eq, host_given hhost, List.map_append, List.map_singleton, Host.run_append]
  simp only [last, given, hostDuring, Host.run_append, Host.run_singleton, n]

/-- A step of a host's node alerts those whom the tick at its end alerts. -/
theorem step_alerted (hhost : r.isHost id = true) (past : List Happening) (now : Instant) (takes : Nat → Bool) :
    let n := (fresh r id).live past
    alerted ((n.step now takes).2.sent.map fun d => (d.dest, d.message)) =
      alerted (Action.sent ((hostDuring r id past now (n.beforeTick now)).react (n.moment now) .tick).2) := by
  intro n
  rw [step_sent, run_events_host hhost, Action.sent_append, alerted_append, Host.run_alerted (n.tick_not_mem now)]
  rfl

/-- Whatever happens to the node of a host and whatever its clock reads, after a step with a tick that is due for
a sweep nobody inside is over its time and no offer is overdue. The step says so to whoever is over its time at
such a tick, once and to nobody else, and moves those out; apart from that nobody inside is moved out by any
input of a step but the user's own request to exit. -/
theorem live_sweeps_overdue {new : Node} (hnew : ofRules id r = .ok new) (hhost : r.isHost id = true)
    (past : List Happening) (now : Instant) (takes : Nat → Bool) :
    let n := new.live past
    let last := (n.step now takes).1
    let alerts := alerted ((n.step now takes).2.sent.map fun d => (d.dest, d.message))
    ∃ before after : Host,
      (n.machine.run ((n.beforeTick now).map (n.moment now, ·))).1 = .host before ∧ last.machine = .host after ∧
      (last.tick % r.sweepInterval.toNat = 0 → after.booth.Timely r now) ∧
      alerts.Nodup ∧
      (∀ u, u ∈ alerts ↔ last.tick % r.sweepInterval.toNat = 0 ∧ before.booth.Overdue now r.sessionDuration u) ∧
      (∀ u ∈ alerts, u ∉ after.booth.activeUsers) ∧
      ∀ pre i post, n.inputs now = pre ++ i :: post → ∃ h : Host,
        (n.machine.run (pre.map (n.moment now, ·))).1 = .host h ∧
        ∀ u ∈ h.booth.activeUsers, u ∉ (h.react (n.moment now) i).1.booth.activeUsers →
          (∃ rssi snr, i = .message u .exitRequest rssi snr) ∨ i = .tick ∧ u ∈ alerts := by
  intro n last alerts
  obtain ⟨-, -, rfl⟩ := ofRules_eq_ok_iff.mp hnew
  let before := hostDuring r id past now (n.beforeTick now)
  have horderly : before.booth.Orderly := orderly_hostDuring r id past now _
  have hrules : before.rules = r := rules_hostDuring r id past now _
  have htick : last.tick = (n.moment now).tick := n.step_tick now takes
  have hafter : last.machine = .host (before.react (n.moment now) .tick).1 := by
    rw [step_machine, run_events_host hhost]
  have halerts : alerts = alerted (Action.sent (before.react (n.moment now) .tick).2) :=
    step_alerted hhost past now takes
  have hexpired : alerts =
      if last.tick % r.sweepInterval.toNat = 0 then before.booth.expired now r.sessionDuration else [] := by
    rw [halerts, Host.react_alerted, hrules, htick]
    simp only [true_and]
    rfl
  refine ⟨before, (before.react (n.moment now) .tick).1, run_hostDuring hhost past now _, hafter, fun hdue => ?_, ?_,
    fun u => ?_, fun u hu => ?_, fun pre i post hinputs =>
      ⟨hostDuring r id past now pre, run_hostDuring hhost past now pre, fun u hin hout => ?_⟩⟩
  · rw [htick, ← hrules] at hdue
    exact hrules ▸ Host.react_tick_timely horderly hdue
  · rw [hexpired]
    split
    · exact horderly.active_nodup.sublist (before.booth.expired_sublist _ _)
    · exact List.nodup_nil
  · rw [hexpired]
    split
    · next hdue => rw [Booth.mem_expired_iff, and_iff_right hdue]
    · next hidle => simp [hidle]
  · exact Host.not_active_of_alerted horderly (halerts ▸ hu)
  · rcases Host.moved_out (orderly_hostDuring r id past now pre) hin hout with hexit | halert
    · exact .inl hexit
    · right
      -- an alert comes with the tick, which is the last input
      rcases split_inputs hinputs with ⟨rfl, rfl, -⟩ | ⟨rest, hsplit⟩
      · exact ⟨rfl, halerts ▸ halert⟩
      · have hquiet : i ≠ .tick := n.tick_not_mem now i (by rw [hsplit]; simp)
        rw [Host.react_alerted, if_neg fun hdue => hquiet hdue.1] at halert
        cases halert

/-- Three visitors come to a booth for two at once. -/
def fullBooth : List Happening :=
  let requests (u : UInt8) : Happening := .deliver ⟨⟨u⟩, Wire.encode .registerRequest, -50, 5⟩
  [requests 4, requests 5, requests 6, .step ⟨0⟩ fun _ => true]

/-- Once the time of the first two visitors is up, both of them are told so in one step, and the third one has
been offered a slot right then. -/
theorem live_sweeps_overdue_fullBooth :
    let n := (fresh .brisk ⟨1⟩).live fullBooth
    let next := n.step ⟨5000⟩ fun _ => true
    alerted (next.2.sent.map fun d => (d.dest, d.message)) = [⟨4⟩, ⟨5⟩] ∧
      ∃ after, next.1.machine = .host after ∧ after.booth.Timely .brisk ⟨5000⟩ ∧
        ⟨4⟩ ∉ after.booth.activeUsers ∧ after.booth.offer = some ⟨⟨6⟩, ⟨5000⟩⟩ := by
  intro n next
  have hnew : ofRules ⟨1⟩ .brisk = .ok (fresh .brisk ⟨1⟩) := ofRules_eq_ok_iff.mpr ⟨by decide, by decide, rfl⟩
  have halerts : alerted (next.2.sent.map fun d => (d.dest, d.message)) = [⟨4⟩, ⟨5⟩] := by decide +kernel
  have hoffer : next.1.machine.rec (fun h => h.booth.offer) (fun _ => none) = some (⟨⟨6⟩, ⟨5000⟩⟩ : Offer) := by
    decide +kernel
  obtain ⟨before, after, -, hafter, htimely, -, -, hout, -⟩ :=
    live_sweeps_overdue hnew (by decide) fullBooth ⟨5000⟩ fun _ => true
  change next.1.machine = .host after at hafter
  rw [hafter] at hoffer
  exact ⟨halerts, after, hafter, htimely (by decide +kernel), hout ⟨4⟩ (halerts ▸ by decide), hoffer⟩

end Node

end BoothFloor
