import BoothFloor.Proofs.Host.Ledger
import BoothFloor.Proofs.Node.History
import BoothFloor.Proofs.Simulation.Setup

/-!
# The tallies of a simulation

A booth's tally counts what its host reports, and what the host reports is a ledger of the booth. So in every
report of a simulation the numbers of a booth add up: it has admitted those whom it has served, and each of
them is still inside, has left or was sent out.
-/

namespace BoothFloor

namespace Tally

/-- Counting some notices counts their admissions. -/
theorem foldl_count_admitted (t : Tally) (log : List Notice) :
    (log.foldl count t).admitted = t.admitted + (log.filterMap Notice.admitted?).length := by
  induction log generalizing t with
  | nil => rfl
  | cons n rest ih =>
    rw [List.foldl_cons, ih]
    cases n <;> simp [count, Notice.admitted?, List.filterMap_cons]
    omega

/-- Counting some notices counts their departures. -/
theorem foldl_count_departed (t : Tally) (log : List Notice) :
    (log.foldl count t).exited + (log.foldl count t).expired =
      t.exited + t.expired + (log.filterMap Notice.departed?).length := by
  induction log generalizing t with
  | nil => rfl
  | cons n rest ih =>
    rw [List.foldl_cons, ih]
    cases n <;> simp [count, Notice.departed?, List.filterMap_cons] <;> omega

end Tally

/-- A tally counts what a host has reported, and that is a ledger of the host's booth. -/
structure Tally.Follows (t : Tally) (h : Host) : Prop where
  orderly : h.booth.Orderly
  recorded : ∃ log, h.booth.Recorded log ∧ t = log.foldl Tally.count {}

namespace Tally

variable {t : Tally} {h : Host}

/-- A tally that has followed a host follows it over a run whose notices it counts. -/
theorem Follows.run (hfollows : t.Follows h) (events : List (Moment × Input)) :
    ((Action.emitted (h.run events).2).foldl count t).Follows (h.run events).1 := by
  obtain ⟨horderly, log, hlog, rfl⟩ := hfollows
  refine ⟨Host.run_orderly horderly events, _, Host.run_recorded horderly hlog events, ?_⟩
  rw [List.foldl_append]

/-- A tally that follows a host counts everyone ever admitted, and each of them is inside or counted as gone. -/
theorem Follows.adds_up (hfollows : t.Follows h) :
    t.admitted = h.booth.registered.length ∧ t.admitted = h.booth.activeUsers.length + t.exited + t.expired := by
  obtain ⟨horderly, log, hlog, rfl⟩ := hfollows
  have hadmitted := foldl_count_admitted {} log
  have hdeparted := foldl_count_departed {} log
  have hlength := hlog.length_registered horderly
  rw [← hlog.registered, Nat.zero_add] at hadmitted
  rw [Booth.length_activeUsers]
  refine ⟨hadmitted, ?_⟩
  change _ = 0 + 0 + _ at hdeparted
  omega

end Tally

namespace Simulation

variable {lottery : Lottery Setup.strengthCount} {s : Setup} {sim : Simulation}

/-- What a node has reported goes to the tally that is kept under its id, and to no other. -/
theorem lookup_book (tallies : List (NodeId × Tally)) (reported : NodeId × List Notice) (id : NodeId) :
    (book tallies reported).lookup id =
      (tallies.lookup id).map fun t => if id = reported.1 then reported.2.foldl Tally.count t else t := by
  induction tallies with
  | nil => rfl
  | cons first rest ih =>
    obtain ⟨booth, t⟩ := first
    change ((booth, _) :: book rest reported).lookup id = _
    rw [List.lookup_cons, List.lookup_cons]
    split
    · next heq =>
      rw [beq_iff_eq] at heq
      subst heq
      rfl
    · exact ih

/-- The notices in some reports that are those of one node. -/
def noticesOf (id : NodeId) (reports : List (NodeId × List Notice)) : List Notice :=
  (reports.filter (·.1 = id)).flatMap (·.2)

/-- After some reports a tally has counted the notices of its own node. -/
theorem lookup_foldl_book (reports : List (NodeId × List Notice)) (tallies : List (NodeId × Tally)) (id : NodeId) :
    (reports.foldl book tallies).lookup id =
      (tallies.lookup id).map fun t => (noticesOf id reports).foldl Tally.count t := by
  induction reports generalizing tallies with
  | nil => exact Option.map_id'.symm
  | cons reported rest ih =>
    rw [List.foldl_cons, ih, lookup_book, Option.map_map]
    congr 1
    funext t
    unfold noticesOf
    rw [List.filter_cons, Function.comp_apply]
    by_cases heq : reported.1 = id
    · rw [if_pos heq.symm, if_pos (decide_eq_true heq), List.flatMap_cons, List.foldl_append]
    · rw [if_neg fun h => heq h.symm, if_neg (by simpa using heq)]

/-- In a tick the tallies count what the nodes report. -/
theorem step_tallies (sim : Simulation) :
    sim.step.tallies = (sim.floor.round sim.setup.tick sim.radio).2.notices.foldl book sim.tallies := rfl

/-- All that the node with an id reports in some ticks. -/
def reportedBy (id : NodeId) : Nat → Simulation → List Notice
  | 0, _ => []
  | n + 1, sim => noticesOf id (sim.floor.round sim.setup.tick sim.radio).2.notices ++ reportedBy id n sim.step

/-- After some ticks a booth's tally has counted what its own node has reported, and nothing else. -/
theorem lookup_steps_tallies (n : Nat) (sim : Simulation) (id : NodeId) :
    (steps n sim).tallies.lookup id =
      (sim.tallies.lookup id).map fun t => (sim.reportedBy id n).foldl Tally.count t := by
  induction n generalizing sim with
  | zero => exact Option.map_id'.symm
  | succ n ih =>
    rw [steps, ih, step_tallies, lookup_foldl_book, Option.map_map]
    congr 1
    funext t
    exact List.foldl_append.symm

/-- Every host has a tally of its own, which follows it, and the nodes have distinct ids. -/
structure Counted (sim : Simulation) : Prop where
  distinct : (sim.floor.nodes.map Node.id).Nodup
  follows : ∀ n ∈ sim.floor.nodes, ∀ h, n.machine = .host h →
    ∃ t, sim.tallies.lookup n.id = some t ∧ t.Follows h

/-- Among nodes with distinct ids, what is reported under the id of one of them is what that one reports. -/
theorem noticesOf_map {nodes : List Node} (distinct : (nodes.map Node.id).Nodup) (reports : Node → List Notice)
    {n : Node} (hn : n ∈ nodes) : noticesOf n.id (nodes.map fun n => (n.id, reports n)) = reports n := by
  induction nodes with
  | nil => cases hn
  | cons first rest ih =>
    obtain ⟨hfresh, hrest⟩ := List.nodup_cons.mp distinct
    have hcons : noticesOf n.id ((first :: rest).map fun n => (n.id, reports n)) =
        (if first.id = n.id then reports first else []) ++ noticesOf n.id (rest.map fun n => (n.id, reports n)) := by
      unfold noticesOf
      rw [List.map_cons, List.filter_cons]
      by_cases heq : first.id = n.id
      · rw [if_pos (decide_eq_true heq), if_pos heq, List.flatMap_cons]
      · rw [if_neg (by simpa using heq), if_neg heq, List.nil_append]
    rw [hcons]
    rcases List.mem_cons.mp hn with rfl | hlater
    · have hnone : noticesOf n.id (rest.map fun n => (n.id, reports n)) = [] := by
        unfold noticesOf
        rw [List.filter_eq_nil_iff.mpr, List.flatMap_nil]
        rintro _ hmem hid
        obtain ⟨m, hm, rfl⟩ := List.mem_map.mp hmem
        exact hfresh (of_decide_eq_true hid ▸ List.mem_map_of_mem hm)
      rw [if_pos rfl, hnone, List.append_nil]
    · have hother : first.id ≠ n.id := fun heq => hfresh (heq ▸ List.mem_map_of_mem hlater)
      rw [if_neg hother, List.nil_append, ih hrest hlater]

/-- What is reported in a tick under the id of a node is what its turn reports. -/
theorem noticesOf_round (distinct : (sim.floor.nodes.map Node.id).Nodup) {n : Node} (hn : n ∈ sim.floor.nodes) :
    noticesOf n.id (sim.floor.round sim.setup.tick sim.radio).2.notices =
      Action.emitted (n.machine.run (n.events (sim.floor.clock.advance sim.setup.tick).now)).2 := by
  have hreports : (sim.floor.round sim.setup.tick sim.radio).2.notices = sim.floor.nodes.map fun n =>
      (n.id, Action.emitted (n.machine.run (n.events (sim.floor.clock.advance sim.setup.tick).now)).2) := by
    change (sim.floor.nodes.map _).map _ = _
    rw [List.map_map]
    refine List.map_congr_left fun n _ => ?_
    exact Prod.ext (n.step_id _ fun _ => true) (n.step_notices _ fun _ => true)
  rw [hreports]
  exact noticesOf_map distinct _ hn

/-- Tallies that follow the hosts do so after a tick. -/
theorem Counted.step (h : sim.Counted) : sim.step.Counted := by
  constructor
  · rw [step_nodes, List.map_map]
    exact (List.map_congr_left fun n _ => Floor.settled_id sim.floor sim.radio _ n) ▸ h.distinct
  · rw [step_nodes]
    intro later hlater host hmachine
    obtain ⟨n, hn, rfl⟩ := List.mem_map.mp hlater
    obtain ⟨before, hbefore, rfl⟩ := Floor.host_of_settled hmachine
    obtain ⟨t, htally, hfollows⟩ := h.follows n hn before hbefore
    refine ⟨_, ?_, hfollows.run (n.events (sim.floor.clock.advance sim.setup.tick).now)⟩
    rw [Floor.settled_id, step_tallies, lookup_foldl_book, htally, noticesOf_round h.distinct hn, hbefore,
      Machine.run_host]
    rfl

/-- Tallies that follow the hosts do so after any number of ticks. -/
theorem Counted.steps (h : sim.Counted) (n : Nat) : (steps n sim).Counted := by
  induction n with
  | zero => exact h
  | succ n ih =>
    rw [steps_succ]
    exact ih.step

/-- A tally that is kept under the id of some node is empty in the beginning. -/
theorem lookup_map_empty {nodes : List Node} {n : Node} (hn : n ∈ nodes) :
    (nodes.map fun n => (n.id, ({} : Tally))).lookup n.id = some {} := by
  induction nodes with
  | nil => cases hn
  | cons first rest ih =>
    rw [List.map_cons, List.lookup_cons]
    split
    · rfl
    · next hother =>
      refine ih ((List.mem_cons.mp hn).resolve_left ?_)
      rintro rfl
      rw [beq_self_eq_true] at hother
      cases hother

/-- A simulation begins with tallies that follow the hosts. -/
theorem counted_of_ofSetup (accepted : ofSetupWith lottery s = .ok sim) : sim.Counted := by
  obtain ⟨rfl, hroom, -⟩ := eq_of_ofSetup accepted
  have hids := Node.map_id_fresh s.raisedRules s.nodeIds
  constructor
  · rw [hids]
    exact Setup.nodup_nodeIds hroom
  · intro n hn host hmachine
    have hhost : n.machine.role = .admin := congrArg Machine.role hmachine
    refine ⟨{}, lookup_map_empty (List.mem_filter.mpr ⟨hn, decide_eq_true hhost⟩), ?_⟩
    obtain ⟨id, -, rfl⟩ := List.mem_map.mp hn
    obtain rfl := Node.host_of_fresh hmachine
    exact ⟨Booth.orderly_ofRules id s.raisedRules, [], Host.recorded_ofRules id s.raisedRules, rfl⟩

/-- The numbers of a booth in a report add up. -/
theorem Counted.adds_up (h : sim.Counted) {report : Report} (hreport : sim.report = .ok report) {booth : BoothReport}
    (hmem : booth ∈ report.booths) :
    booth.tally.admitted = booth.served ∧
      booth.tally.admitted = booth.active.length + booth.tally.exited + booth.tally.expired := by
  obtain ⟨-, -, rfl⟩ := report_eq_ok_iff.mp hreport
  obtain ⟨n, hn, hbooth⟩ := List.mem_filterMap.mp hmem
  rw [Node.snapshot] at hbooth
  cases hmachine : n.machine with
  | visitor v =>
    rw [hmachine] at hbooth
    cases hbooth
  | host host =>
    rw [hmachine] at hbooth
    obtain ⟨t, htally, hfollows⟩ := h.follows n hn host hmachine
    have hown : sim.tallies.lookup host.snapshot.id = some t := by
      rw [← htally, Node.id, hmachine]
      rfl
    dsimp only [Machine.snapshot] at hbooth
    rw [hown] at hbooth
    obtain rfl := Option.some.inj hbooth
    exact hfollows.adds_up

/-- What a host reports is an exact ledger of its booth. Whatever inputs it is given, those ever admitted are
those whose admission it has reported, in order; everyone is reported to exit or to be over its time once at
most, and after its admission; and those inside are the ones admitted of whom neither is reported. Hence in
every report of every simulation a booth has admitted those whom it has served, and each of them is inside,
has left or was over its time. -/
theorem steps_ledger_exact (id : NodeId) (r : Rules) (events : List (Moment × Input))
    (lottery : Lottery Setup.strengthCount) (s : Setup) (sim : Simulation)
    (accepted : ofSetupWith lottery s = .ok sim) (n : Nat) :
    (let b := ((Host.ofRules id r).run events).1.booth
      let log := Action.emitted ((Host.ofRules id r).run events).2
      b.registered = log.filterMap Notice.admitted? ∧
        (∀ u, log.count (.userExited u) + log.count (.sessionExpired u) ≤ 1) ∧
        (∀ before n after u, log = before ++ n :: after → n = .userExited u ∨ n = .sessionExpired u →
          .userAdmitted u ∈ before) ∧
        b.activeUsers = (log.filterMap Notice.admitted?).filter fun u =>
          .userExited u ∉ log ∧ .sessionExpired u ∉ log) ∧
      ∀ report, (steps n sim).report = .ok report → ∀ booth ∈ report.booths, booth.tally.admitted = booth.served ∧
        booth.tally.admitted = booth.active.length + booth.tally.exited + booth.tally.expired := by
  obtain ⟨hregistered, honce, hlater, hactive⟩ := Host.run_ledger id r events
  refine ⟨⟨hregistered, honce, hlater, hregistered ▸ hactive⟩, fun report hreport booth hbooth => ?_⟩
  exact ((counted_of_ofSetup accepted).steps n).adds_up hreport hbooth

/-- Three visitors and one booth with two slots, and sessions of one second. -/
def shortVisits : Setup where
  rules := { Rules.brisk with hosts := ⟨1, 1⟩, sessionDuration := ⟨1000⟩ }
  users := 3
  duration := .ofMillis 4000
  tick := .ofMillis 200
  seed := 7

/-- After twelve ticks the third visitor has followed the first two, whose time was up; and of the visitors in
`threeVisitors` the one that was reported to exit is not inside. -/
theorem steps_ledger_exact_shortVisits :
    ∃ sim, ofSetup shortVisits = .ok sim ∧
      (∃ report, (steps 12 sim).report = .ok report ∧
        ∃ booth ∈ report.booths, (booth.tally.admitted, booth.tally.expired) = (3, 2) ∧
          booth.served = 3 ∧ booth.active.length + booth.tally.exited = 1) ∧
      ((Host.ofRules ⟨1⟩ .brisk).run Host.threeVisitors).1.booth.activeUsers = [⟨4⟩] := by
  have hview : (match ofSetup shortVisits with
      | .ok sim => (steps 12 sim).report.toOption.map fun report =>
          report.booths.map fun b => (b.tally.admitted, b.tally.expired)
      | .error _ => none) = some [(3, 2)] := by decide +kernel
  cases hsim : ofSetup shortVisits with
  | error e =>
    rw [hsim] at hview
    cases hview
  | ok sim =>
    rw [hsim] at hview
    dsimp only at hview
    obtain ⟨⟨-, -, -, hactive⟩, hbooths⟩ :=
      steps_ledger_exact ⟨1⟩ .brisk Host.threeVisitors Setup.stream shortVisits sim hsim 12
    cases hreport : (steps 12 sim).report with
    | error fault =>
      rw [hreport] at hview
      cases hview
    | ok report =>
      rw [hreport] at hview
      have hcounted : (report.booths.map fun b => (b.tally.admitted, b.tally.expired)) = [(3, 2)] :=
        Option.some.inj hview
      have hmem : (3, 2) ∈ report.booths.map fun b => (b.tally.admitted, b.tally.expired) :=
        hcounted ▸ List.mem_cons_self
      obtain ⟨booth, hbooth, hcounts⟩ := List.mem_map.mp hmem
      obtain ⟨hadmitted, hexpired⟩ := Prod.mk.inj hcounts
      obtain ⟨hserved, hsum⟩ := hbooths report hreport booth hbooth
      refine ⟨sim, rfl, ⟨report, hreport, booth, hbooth, hcounts, by omega, by omega⟩, ?_⟩
      rw [hactive]
      decide

end Simulation

end BoothFloor
