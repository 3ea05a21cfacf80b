import BoothFloor.Proofs.Node.History
import BoothFloor.Proofs.Node.Timers
import BoothFloor.Proofs.Rules
import BoothFloor.Proofs.Visitor.Attempt

/-!
# The ceilings on retries

Whatever happens to the node of a visitor, an attempt at a booth has one request more than the rules allow
retries at the most. Whenever a step hands over an overdue answer, the visitor is in the middle of an attempt:
it asks the booth again, or it has asked as often as it may and gives up. Then one notice says so, and nothing
of the booth is left, neither in the visitor nor in its timers.
-/

namespace BoothFloor

namespace Node

/-- A visitor's node in which nothing is left of a booth: both timers are idle and no expiry is left to take. -/
structure Cleared (n : Node) : Prop where
  visitor : ∃ v, n.machine = .visitor v ∧ v.Cleared
  timers : ∀ k : TimerKind, n.timers.isArmed k = false ∧ n.inbox.signals.isSet k.signal = false

variable {id : NodeId} {r : Rules} {n : Node} {now : Instant} {past : List Happening}

/-- The visitor in the middle of a step has been given the history of the node and the inputs of the step so far. -/
theorem machine_given (hguest : r.isHost id = false) (past : List Happening) (events : List (Moment × Input)) :
    (((fresh r id).live past).machine.run events).1 =
      .visitor ((Visitor.ofRules id r).run ((fresh r id).history past ++ events)).1 := by
  rw [((fresh r id).live_run past).1, machine_fresh hguest, Machine.run_visitor, Machine.run_visitor,
    Visitor.run_append]

/-- A step hands over one overdue answer at most, and behind it nothing but intents and the tick. -/
theorem around_retry {pre post : List Input} (h : n.inputs now = pre ++ .timer .retry :: post) :
    (∀ i ∈ pre, i ≠ .timer .retry) ∧ ∀ i ∈ post, i = .tick ∨ ∃ intent, i = .intent intent := by
  obtain ⟨hretries, rfl⟩ := n.before_retry h
  obtain ⟨hopening, hheard, -⟩ := n.timer_not_mem .retry
  rw [inputs, if_pos hretries, ← List.append_assoc] at h
  obtain rfl : n.asked ++ [.tick] = post := (List.cons.inj (List.append_cancel_left h)).2
  refine ⟨?_, fun i hi => ?_⟩
  · rintro i hi rfl
    rw [news, List.mem_append, List.mem_append] at hi
    rcases hi with hi | hi | hi
    · exact hopening hi
    · exact hheard hi
    · split at hi <;> simp at hi
  · rcases List.mem_append.mp hi with hi | hi
    · obtain ⟨intent, -, rfl⟩ := mem_asked hi
      exact .inr ⟨intent, rfl⟩
    · exact .inl (List.mem_singleton.mp hi)

/-- With an overdue answer a step goes on as the visitor reacts to it. -/
theorem retried_of_overdue {pre post : List Input} (hinputs : n.inputs now = pre ++ .timer .retry :: post) {w : Visitor}
    (hw : (n.machine.run (pre.map (n.moment now, ·))).1 = .visitor w) :
    (n.retried now).node.machine = .visitor (w.react (n.moment now) (.timer .retry)).1 ∧
      (n.retried now).sent = (n.selected now).sent ++ Action.sent (w.react (n.moment now) (.timer .retry)).2 ∧
      (n.retried now).notices =
        (n.selected now).notices ++ Action.emitted (w.react (n.moment now) (.timer .retry)).2 := by
  obtain ⟨hretries, rfl⟩ := n.before_retry hinputs
  have hselected := machine_of_follows (n.selected_follows now)
  rw [hw] at hselected
  have hmoment : (n.selected now).moment = n.moment now :=
    (n.selected_follows now).moment.trans (n.polled_machine now).2.2.2.2.1
  have hfollows := n.retried_follows now
  have hrun : (n.selected now).node.machine.run ([.timer .retry].map ((n.selected now).moment, ·)) =
      (.visitor (w.react (n.moment now) (.timer .retry)).1, (w.react (n.moment now) (.timer .retry)).2) := by
    rw [hselected, hmoment, Machine.run_visitor, List.map_singleton, Visitor.run, runWith_singleton]
  rw [if_pos hretries] at hfollows
  refine ⟨?_, ?_, ?_⟩
  · rw [hfollows.machine, hrun]
  · rw [hfollows.sent, hrun]
  · rw [hfollows.notices, hrun]

/-- The way in which a step, with the visitor as it is when the overdue answer is handed over, gives up on a booth:
the visitor leaves the queue if it waits, one notice of the step says that it asked in vain, and nothing is left
of the booth, right then and at the end of the step. -/
structure GivesUp (n : Node) (now : Instant) (w : Visitor) (b : NodeId) (stage : RetryStage) : Prop where
  sent : (n.retried now).sent = (n.selected now).sent ++ if w.stage = .waiting then [(b, .queueLeave)] else []
  notices : (n.retried now).notices =
    (n.selected now).notices ++ [.retriesExhausted b stage, .stateChanged w.stage .scanning]
  cleared : (n.retried now).node.Cleared
  once : ∀ takes, (n.step now takes).2.notices.filter Notice.isExhausted = [.retriesExhausted b stage]
  ends : ∀ takes, (n.step now takes).1.Cleared

/-- A node that is coupled with its timers while nothing is left of a booth in the visitor has idle timers. -/
theorem cleared_of_coupled {v : Visitor} {tick : Nat} (hmachine : n.machine = .visitor (v.freed tick))
    (hcoupled : (v.freed tick).Coupled n.alarms) : n.Cleared where
  visitor := ⟨_, hmachine, v.cleared_freed tick⟩
  timers := fun k => by
    have hidle := hcoupled.live k
    rw [Visitor.wants_freed, Alarms.isLive, Bool.or_eq_false_iff] at hidle
    exact hidle

/-- The run of a turn with an overdue answer is what comes before, the reaction to it and what comes after. -/
theorem run_of_overdue {pre post : List Input} (hinputs : n.inputs now = pre ++ .timer .retry :: post) {v w : Visitor}
    (hv : n.machine = .visitor v) (hw : (v.run (pre.map (n.moment now, ·))).1 = w) {outcome : Visitor × List Action}
    (hreact : w.react (n.moment now) (.timer .retry) = outcome) :
    n.machine.run (n.events now) =
      (.visitor (outcome.1.run (post.map (n.moment now, ·))).1,
        (v.run (pre.map (n.moment now, ·))).2 ++
          (outcome.2 ++ (outcome.1.run (post.map (n.moment now, ·))).2)) := by
  rw [events, hv, Machine.run_visitor, hinputs, List.map_append, List.map_cons, Visitor.run_append, Visitor.run_cons,
    hw, hreact]

/-- If no retry is left for an overdue answer, the step gives up. -/
theorem Quiet.gives_up (h : n.Quiet) {pre post : List Input} (hinputs : n.inputs now = pre ++ .timer .retry :: post)
    {w : Visitor} (hw : (n.machine.run (pre.map (n.moment now, ·))).1 = .visitor w) {b : NodeId} {stage : RetryStage}
    (hawaits : w.awaited? stage = some b) (hspent : w.rules.retryLimit stage ≤ w.retries stage)
    (interval : 0 < w.rules.scanInterval.toNat) : n.GivesUp now w b stage := by
  have hreact := Visitor.react_overdue_of_le hawaits hspent (n.moment now)
  obtain ⟨hmachine, hsent, hnotices⟩ := retried_of_overdue hinputs hw
  rw [hreact] at hmachine hsent hnotices
  obtain ⟨v, hv, -, -⟩ := h.coupled
  have hmid : (v.run (pre.map (n.moment now, ·))).1 = w := by
    rw [hv, Machine.run_visitor] at hw
    exact Machine.visitor.inj hw
  have hturn := run_of_overdue hinputs hv hmid hreact
  obtain ⟨hearly, hlate⟩ := around_retry hinputs
  constructor
  case sent =>
    rw [hsent, Action.sent_append]
    split <;> rfl
  case notices =>
    rw [hnotices, Action.emitted_append]
    split <;> rfl
  case cleared =>
    obtain ⟨u, hu, hcoupled⟩ := (h.selected now).onTimer .retry
    obtain rfl := Machine.visitor.inj (hu.symm.trans hmachine)
    exact cleared_of_coupled hu hcoupled
  case once =>
    intro takes
    change (n.turn now).notices.filter _ = _
    have hbefore := v.not_exhausted_of_run (n.moment now) hearly
    have hother : ∀ i ∈ post, i ≠ .timer .retry := fun i hi => by
      rcases hlate i hi with rfl | ⟨intent, rfl⟩ <;> nofun
    have hafter := (w.freed (n.moment now).tick).not_exhausted_of_run (n.moment now) hother
    rw [(n.turn_run now).2.2, ← events, hturn, Action.emitted_append, Action.emitted_append, Action.emitted_append,
      List.filter_append, List.filter_append, hbefore, hafter]
    split <;> rfl
  case ends =>
    intro takes
    obtain ⟨u, hu, hcoupled, -⟩ := (h.step now takes).coupled
    have hend := n.step_machine now takes
    rw [hturn, w.run_freed interval (n.moment now) hlate, hu] at hend
    obtain rfl := Machine.visitor.inj hend
    exact cleared_of_coupled hu hcoupled

/-- Whatever happens to the node of a visitor, the requests of an attempt at a booth go to that booth, and there is
one more of them than the rules allow retries at the most. Whenever the next step hands over an overdue answer, the
visitor is in the middle of an attempt and still awaits its answer; until the last allowed request it asks once more
and reports nothing, and after that it gives up. -/
theorem live_retries_bounded {new : Node} (hnew : ofRules id r = .ok new) (hguest : r.isHost id = false)
    (past : List Happening) :
    let n := new.live past
    let visitor := Visitor.ofRules id r
    (∀ b stage before attempt after, new.history past = before ++ attempt ++ after →
      (visitor.run before).1.Attempts b stage attempt →
        let acts := ((visitor.run before).1.run attempt).2
        Action.sent acts <:+: new.messages past ∧
          ∃ k ≤ r.retryLimit stage + 1, stage.asked acts = List.replicate k b) ∧
    ∀ now pre post, n.inputs now = pre ++ .timer .retry :: post →
      let given := new.history past ++ pre.map (n.moment now, ·)
      let w := (visitor.run given).1
      (n.machine.run (pre.map (n.moment now, ·))).1 = .visitor w ∧
      (∃ b stage before attempt, given = before ++ attempt ∧ (visitor.run before).1.Attempts b stage attempt ∧
        w.awaited? stage = some b) ∧
      ∀ b stage before attempt, given = before ++ attempt → (visitor.run before).1.Attempts b stage attempt →
        w.awaited? stage = some b →
          let count := (stage.asked ((visitor.run before).1.run attempt).2).length
          (count ≤ r.retryLimit stage →
            stage.asked (w.react (n.moment now) (.timer .retry)).2 = [b] ∧
              Action.emitted (w.react (n.moment now) (.timer .retry)).2 = []) ∧
          (count = r.retryLimit stage + 1 → n.GivesUp now w b stage) := by
  intro n visitor
  obtain ⟨hvalid, -, rfl⟩ := ofRules_eq_ok_iff.mp hnew
  refine ⟨fun b stage before attempt after hsplit hattempt => ⟨?_, ?_⟩, fun now pre post hinputs => ?_⟩
  · rw [((fresh r id).live_run past).2.1, machine_fresh hguest, Machine.run_visitor, hsplit, Visitor.run_append,
      Visitor.run_append, Action.sent_append, Action.sent_append]
    exact List.infix_append _ _ _
  · obtain ⟨k, hk, hrequests, -⟩ := Visitor.asked_of_attempt hattempt
    exact ⟨k + 1, Nat.succ_le_succ hk, hrequests⟩
  · intro given w
    have hquiet : n.Quiet := live_keeps (quiet_fresh hguest) (fun _ e h => h.undergo e) past
    have hw := machine_given hguest past (pre.map (n.moment now, ·))
    have hrules : w.rules = r := visitor.run_rules given
    refine ⟨hw, ?_, fun b stage before attempt hgiven hattempt hawaits => ?_⟩
    · obtain ⟨stage, b, hawaits⟩ := Visitor.awaited?_of_awaitsAnswer (hquiet.timeout hinputs hw).1
      obtain ⟨before, attempt, hgiven, hattempt⟩ :=
        Visitor.exists_attempt (Visitor.decidesAfresh_ofRules id r) (by cases stage <;> rfl) hawaits
      exact ⟨b, stage, before, attempt, hgiven, hattempt, hawaits⟩
    · obtain ⟨k, -, hrequests, hretries⟩ := Visitor.asked_of_attempt hattempt
      rw [← hgiven] at hretries
      have hspent : w.retries stage = k := hretries hawaits
      rw [hrequests, List.length_replicate]
      refine ⟨fun hcount => ?_, fun hcount => ?_⟩
      · have hleft : w.retries stage < w.rules.retryLimit stage := by
          rw [hrules, hspent]
          exact hcount
        obtain ⟨hagain, hsilent, -⟩ := Visitor.react_overdue_of_lt hawaits hleft (n.moment now)
        exact ⟨hagain, hsilent⟩
      · have hnone : w.rules.retryLimit stage ≤ w.retries stage := by
          rw [hrules, hspent]
          omega
        refine hquiet.gives_up hinputs hw hawaits hnone ?_
        rw [hrules]
        exact hvalid.bounds.scanInterval_pos

/-- A visitor finds a booth that never answers. -/
def silentBooth : List Happening :=
  let steps (now : UInt64) : Happening := .step ⟨now⟩ fun _ => true
  [steps 0, .deliver ⟨⟨1⟩, Wire.encode (.boothAnnounce ⟨⟨1⟩, 0, 2, 0⟩), -50, 5⟩, steps 300, steps 700, steps 1100]

/-- The booth is asked three times, which is once more than its visitor may retry, and with the next timeout the
visitor gives up. -/
theorem live_retries_bounded_silentBooth :
    let new := fresh .brisk ⟨4⟩
    let n := new.live silentBooth
    (new.messages silentBooth).filter (·.2 = .connectRequest) = List.replicate 3 (⟨1⟩, .connectRequest) ∧
      n.inputs ⟨1500⟩ = [.timer .retry, .tick] ∧
      ∃ w, n.machine = .visitor w ∧ n.GivesUp ⟨1500⟩ w ⟨1⟩ .connect := by
  intro new n
  have hnew : ofRules ⟨4⟩ .brisk = .ok new := ofRules_eq_ok_iff.mpr ⟨by decide, by decide, rfl⟩
  have hinputs : n.inputs ⟨1500⟩ = [] ++ .timer .retry :: [.tick] := by decide +kernel
  refine ⟨by decide +kernel, hinputs, ?_⟩
  obtain ⟨hbound, hoverdue⟩ := live_retries_bounded hnew (by decide) silentBooth
  obtain ⟨hmachine, ⟨b, stage, before, attempt, hgiven, hattempt, hawaits⟩, hdispatch⟩ := hoverdue _ _ _ hinputs
  obtain ⟨hagain, hgivesUp⟩ := hdispatch b stage before attempt hgiven hattempt hawaits
  have hgave : Action.emitted (((Visitor.ofRules ⟨4⟩ .brisk).run (new.history silentBooth)).1.react
      (n.moment ⟨1500⟩) (.timer .retry)).2 ≠ [] := by decide +kernel
  have hphase : ((Visitor.ofRules ⟨4⟩ .brisk).run (new.history silentBooth)).1.phase = .connected ⟨1⟩ .boothInfo := by
    decide +kernel
  rw [List.map_nil, List.append_nil] at hgiven hawaits hagain hgivesUp
  simp only [List.map_nil, List.append_nil, Machine.run, runWith] at hmachine
  obtain ⟨-, k, hk, hrequests⟩ := hbound b stage before attempt [] (by rw [hgiven, List.append_nil]) hattempt
  rw [hrequests, List.length_replicate] at hagain hgivesUp
  have hcount : k = Rules.brisk.retryLimit stage + 1 :=
    Nat.le_antisymm hk (Nat.lt_of_not_le fun hle => hgave (hagain hle).2)
  rcases Visitor.phase_of_awaited? hawaits with ⟨rfl, hsame⟩ | ⟨rfl, hsame | ⟨_, hsame⟩⟩
  · obtain ⟨rfl, -⟩ := Phase.connected.inj (hphase.symm.trans hsame)
    exact ⟨_, hmachine, hgivesUp hcount⟩
  · cases hphase.symm.trans hsame
  · cases hphase.symm.trans hsame

end Node

end BoothFloor
