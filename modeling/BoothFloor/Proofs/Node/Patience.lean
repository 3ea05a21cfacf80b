import BoothFloor.Proofs.Node.Timers
import BoothFloor.Proofs.Visitor.Errand

/-!
# A visitor waits for its answer

A visitor that asks for admission starts the retry timer, and nothing but the answer touches the timer while
it waits. So before the time for the answer has passed no overdue answer is handed over.
-/

namespace BoothFloor

namespace Action

/-- A timer that no action deals with stays as it is. -/
theorem alarm_alarmsAfter {k : TimerKind} {acts : List Action} (h : ∀ act ∈ acts, act.settles k.signal = false)
    (now : Instant) (a : Alarms) : (alarmsAfter now a acts).timers.alarm k = a.timers.alarm k := by
  induction acts generalizing a with
  | nil => rfl
  | cons act rest ih =>
    change (alarmsAfter now (onAlarms now a act) rest).timers.alarm k = _
    rw [ih (fun other hother => h other (List.mem_cons_of_mem _ hother))]
    have hact := h act List.mem_cons_self
    cases act with
    | send | emit => rfl
    | startTimer j | stopTimer j =>
      have hother : k ≠ j := by
        rintro rfl
        simp [settles] at hact
      exact Timers.alarm_put_of_ne _ _ hother

/-- A timer that is started at the end runs from then on. -/
theorem alarm_alarmsAfter_start (k : TimerKind) (span : Span) (acts : List Action) (now : Instant) (a : Alarms) :
    (alarmsAfter now a (acts ++ [startTimer k span])).timers.alarm k = Alarm.start now span := by
  rw [alarmsAfter, List.foldl_append]
  exact Timers.alarm_put_self _ k _

end Action

namespace Visitor

variable {v : Visitor} {m : Moment} {i : Input} {b : NodeId}

/-- A visitor that waits for an answer to its registration has just asked and started the timer, or it did
wait and has not dealt with the timer. -/
theorem react_registers (h : (v.react m i).1.registering? = some b) :
    (v.registering? = some b ∧ (b, .registerRequest) ∉ Action.sent (v.react m i).2 ∧
        ∀ act ∈ (v.react m i).2, act.settles .retryTimeout = false) ∨
      ∃ acts, (v.react m i).2 = acts ++ [.startTimer .retry v.rules.registerTimeout] := by
  have hreaction := v.react_reaction m i
  generalize v.react m i = outcome at hreaction h
  have hsilent {n : Notice} : (b, Message.registerRequest) ∉ Action.sent [.emit n] ∧
      ∀ act ∈ [Action.emit n], act.settles .retryTimeout = false := by simp [Action.settles]
  cases hreaction with
  | idle => exact .inl ⟨h, List.not_mem_nil, fun _ hact => absurd hact List.not_mem_nil⟩
  | answers | showsText | showsChat | showsExit => exact .inl ⟨h, hsilent⟩
  | placed _ _ _ _ claiming _ _ _ _ hphase =>
    refine .inl ⟨?_, hsilent⟩
    cases claiming with
    | false => cases h
    | true =>
      rw [registering?, hphase]
      exact h
  | starts =>
    refine .inl ⟨h, by simp, fun act hact => ?_⟩
    simp only [startScan, List.mem_append, List.mem_map, List.mem_cons, List.not_mem_nil, or_false] at hact
    rcases hact with ⟨_, -, rfl⟩ | rfl | rfl <;> rfl
  | accepts booth current capacity waiting description =>
    exact .inr ⟨[.stopTimer .retry, .emit (.boothOffered booth current capacity waiting description false),
      .send booth (.userResponse true), .send booth .registerRequest], rfl⟩
  | affirms booth | reaffirms booth =>
    exact .inr ⟨[.send booth (.userResponse true), .send booth .registerRequest], rfl⟩
  | claims booth | reclaims booth => exact .inr ⟨[.send booth .registerRequest], rfl⟩
  | rescans hphase | hears _ _ _ _ _ hphase | findsNone hphase | reconnects _ hphase | chats _ _ _ hphase =>
    simp [registering?, startScan, hphase] at h
  | _ => cases h

end Visitor

namespace Turn

/-- A property that outlasts all that a turn does once it has polled its timers: handing over an input, and any
work on the mail and the counters. -/
structure Robust (P : Turn → Prop) : Prop where
  feed : ∀ t i, P t → P (t.feed i)
  frame : ∀ s t : Turn, t.node.machine = s.node.machine → t.node.timers = s.node.timers → t.node.now = s.node.now →
    t.sent = s.sent → P s → P t

/-- Such a property outlasts all inputs and minds no signal. -/
theorem Robust.lasts {P : Turn → Prop} (hP : Robust P) : Lasts P (fun _ => True) fun _ => False where
  feed := fun t i _ => hP.feed t i
  frame := fun s t hmachine htimers hnow hsent _ => hP.frame s t hmachine htimers hnow hsent

/-- A visitor that has asked for admission in a turn and waits for the answer has started the timer for it. -/
def Patient (t : Turn) : Prop :=
  ∀ v b, t.node.machine = .visitor v → v.registering? = some b → (b, .registerRequest) ∈ t.sent →
    t.node.timers.retry = Alarm.start t.node.now v.rules.registerTimeout

/-- A visitor that has asked in a turn is patient for the rest of it. -/
theorem robust_patient : Robust Patient where
  frame := fun s t hmachine htimers hnow hsent h => by
    unfold Patient
    rw [hmachine, htimers, hnow, hsent]
    exact h
  feed := fun t i h w b hmachine hregistering hasked => by
    cases hrole : t.node.machine with
    | host host =>
      rw [feed_eq, hrole] at hmachine
      cases hmachine
    | visitor v =>
      obtain ⟨hlater, halarms⟩ := feed_visitor hrole i
      have hsent : (t.feed i).sent = t.sent ++ Action.sent (v.react t.moment i).2 := by
        rw [feed_eq, hrole]
        rfl
      obtain rfl : (v.react t.moment i).1 = w := Machine.visitor.inj (hlater.symm.trans hmachine)
      rw [hsent] at hasked
      change (t.feed i).node.alarms.timers.alarm .retry = Alarm.start t.node.now _
      rw [halarms, v.react_rules]
      rcases Visitor.react_registers hregistering with ⟨hbefore, hsilent, hsettles⟩ | ⟨acts, hacts⟩
      · rw [Action.alarm_alarmsAfter hsettles]
        exact h v b hrole hbefore ((List.mem_append.mp hasked).resolve_right hsilent)
      · rw [hacts, Action.alarm_alarmsAfter_start]

end Turn

namespace Node

variable {n : Node} {now : Instant}

/-- What outlasts a turn holds at its end, if it does once the timers have been polled. -/
theorem turn_robust {P : Turn → Prop} (hP : Turn.Robust P) (h : P (n.polled now)) : P (n.turn now) := by
  have hlasts := hP.lasts
  have hread : P (n.read now) := hlasts.onSignal not_false (fun _ => hlasts.readFrames fun _ _ _ _ => trivial) h
  have hselected : P (n.selected now) := hlasts.onSignal not_false (fun s => hP.feed s (.timer .selection)) hread
  have hretried : P (n.retried now) := hlasts.onSignal not_false (fun s => hP.feed s (.timer .retry)) hselected
  have hintended : P (n.intended now) := hlasts.onSignal not_false (fun _ => hlasts.readIntents fun _ => trivial) hretried
  have hconfirmed : P ((n.intended now).onSignal .sendConfirmed (Turn.counting Turn.countConfirmation)) :=
    hlasts.onSignal not_false (fun _ => hlasts.counting _) hintended
  exact hP.feed _ .tick hconfirmed

/-- Before the timers are polled nobody asks for admission. -/
theorem polled_sent (n : Node) (now : Instant) (b : NodeId) : (b, .registerRequest) ∉ (n.polled now).sent := by
  intro hmem
  rw [(n.polled_machine now).2.1] at hmem
  unfold opening at hmem
  split at hmem
  · cases hmem
  · rw [List.map_singleton, Machine.run, runWith_singleton] at hmem
    cases hrole : n.machine with
    | host h =>
      rw [hrole] at hmem
      cases List.mem_singleton.mp hmem
    | visitor v =>
      rw [hrole] at hmem
      change _ ∈ Action.sent (Visitor.startScan (n.moment now).tick v).2 at hmem
      simp at hmem

/-- A visitor that has asked in a turn and still waits for the answer has started the timer for it in the turn. -/
theorem turn_patient (n : Node) (now : Instant) : (n.turn now).Patient :=
  turn_robust Turn.robust_patient fun _ b _ _ hasked => absurd hasked (n.polled_sent now b)

/-- No overdue answer is handed over before its time. -/
theorem retries_eq_false (hstarted : n.started = true) (huntaken : n.inbox.signals.isSet .retryTimeout = false)
    (hdue : n.timers.retry.isDue now = false) : n.retries now = false := by
  have hpolled : (n.polled now).node.inbox.signals.isSet TimerKind.retry.signal = false := by
    have hbegin : Turn.begin { node := { n with now := now, tick := n.tick + 1 } } =
        { node := { n with now := now, tick := n.tick + 1 } } := if_pos hstarted
    unfold polled
    dsimp only
    rw [hbegin]
    change (Timers.poll now n.timers n.inbox.signals).2.isSet TimerKind.retry.signal = false
    rw [Timers.isSet_poll_signal, show (n.timers.alarm .retry).isDue now = false from hdue, Bool.false_or]
    exact huntaken
  exact (n.selected_follows now).isSet_eq_false hpolled

/-- No overdue answer is handed over in a turn in which the visitor has just asked for admission. -/
theorem retries_eq_false_of_asked {v : Visitor} (hvisitor : n.machine = .visitor v) {b : NodeId}
    (hasked : (b, .registerRequest) ∈
      Action.sent (v.run ((n.opening ++ n.news now).map (n.moment now, ·))).2) : n.retries now = false := by
  rw [Bool.eq_false_iff]
  intro hretries
  have hsettles := settles_of_retries hretries
  have hopening := n.polled_sent now b
  rw [(n.polled_machine now).2.1] at hopening
  rw [hvisitor, Machine.run_visitor] at hsettles hopening
  dsimp only at hsettles hopening
  rw [Machine.run_visitor] at hsettles
  rw [List.map_append, Visitor.run, runWith_append, andThen, Action.sent_append] at hasked
  have hnews := (List.mem_append.mp hasked).resolve_left hopening
  obtain ⟨act, hact, hsettled⟩ := Visitor.run_settles_of_sent (v.run (n.opening.map (n.moment now, ·))).1
    (Visitor.isExternal_upToSelection n.heard_messages (n.selects now)) (List.ne_nil_of_mem hnews)
  rw [hsettles act hact] at hsettled
  cases hsettled

end Node

end BoothFloor
