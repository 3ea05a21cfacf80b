import BoothFloor.Proofs.Checked.Node
import BoothFloor.Proofs.Node.Patience
import BoothFloor.Proofs.Visitor.Cadence

/-!
# The cadence of a node's scans

The outcomes of a life stand in the order of the ticks, so an interval of ticks is one of places in that row. The
visitor's note of the last mark is the number of the last tick whose outcome shows one; hence two scans lie at least
an interval apart, and no scanning visitor is without an open window for as long as an interval. In a window that is
open the timer is armed, and when it is due the scan ends.
-/

namespace BoothFloor

/-- Whether a step has seen a scan start, a scan end or the visitor come back to scanning. -/
def Outcome.marksScan (o : Outcome) : Bool := o.notices.any Notice.isScanMark

/-- Whom a step has asked to announce themselves. -/
def Outcome.callouts (o : Outcome) : List NodeId := (o.sent.filter (·.message = .boothScan)).map (·.dest)

/-- What stands in a row of one entry more stood there before or is the new entry. -/
theorem getElem?_concat_eq_some {α : Type} {l : List α} {a b : α} {i : Nat} (h : (l ++ [a])[i]? = some b) :
    l[i]? = some b ∨ i = l.length ∧ b = a := by
  rcases Nat.lt_trichotomy i l.length with hlt | rfl | hgt
  · rw [List.getElem?_append_left hlt] at h
    exact .inl h
  · rw [List.getElem?_concat_length] at h
    exact .inr ⟨rfl, (Option.some.inj h).symm⟩
  · have hlength : (l ++ [a]).length ≤ i := List.length_append ▸ hgt
    rw [List.getElem?_eq_none hlength] at h
    cases h

namespace Turn

/-- A turn of a visitor whose scan is under way, with the state of the timer that ends the scan. -/
structure Watches (t : Turn) (timer : Alarm) (fired : Bool) : Prop where
  visitor : ∃ v, t.node.machine = .visitor v ∧ v.Scanning
  timer : t.node.timers.selection = timer
  fired : t.node.inbox.signals.isSet .selectionTimeout = fired

variable {t : Turn} {timer : Alarm} {fired : Bool}

/-- No input but the timeout ends a scan, and none but the start touches its timer. -/
theorem Watches.feed (h : t.Watches timer fired) {i : Input} (hstart : i ≠ .start) (htimer : i ≠ .timer .selection) :
    (t.feed i).Watches timer fired := by
  obtain ⟨v, hv, hscanning⟩ := h.visitor
  obtain ⟨hstays, hsettles⟩ := hscanning.react (m := t.moment) hstart htimer
  obtain ⟨hmachine, halarms⟩ := feed_visitor hv i
  refine ⟨⟨_, hmachine, hstays⟩, ?_, ?_⟩
  · have halarm := Action.alarm_alarmsAfter (k := .selection) hsettles t.node.now t.node.alarms
    rw [← halarms] at halarm
    exact halarm.trans h.timer
  · change (t.feed i).node.alarms.signals.isSet .selectionTimeout = fired
    rw [halarms, Action.isSet_alarmsAfter]
    change (t.node.inbox.signals.isSet .selectionTimeout && _) = fired
    rw [h.fired, List.any_eq_false.mpr fun act hact => Bool.eq_false_iff.mp (hsettles act hact), Bool.not_false,
      Bool.and_true]

/-- Nothing but the start and its own timeout concerns a scan that is under way. -/
theorem lasts_watches (timer : Alarm) (fired : Bool) :
    Lasts (·.Watches timer fired) (fun i => i ≠ .start ∧ i ≠ .timer .selection) (· = .selectionTimeout) where
  feed := fun _ _ hi h => h.feed hi.1 hi.2
  frame := fun _ _ hmachine htimers _ _ hsignals h =>
    ⟨hmachine ▸ h.visitor, htimers ▸ h.timer, (hsignals _ rfl).trans h.fired⟩

end Turn

namespace Node

variable {n : Node} {v : Visitor} {now : Instant} {r : Rules} {log : List Outcome}

/-- What a visitor makes of a step. -/
theorem step_visitor (hmachine : n.machine = .visitor v) (now : Instant) (takes : Nat → Bool) :
    let run := v.run (n.events now)
    (n.step now takes).1.machine = .visitor run.1 ∧ (n.step now takes).2.notices = Action.emitted run.2 ∧
      (n.step now takes).2.sent.map (fun d => (d.dest, d.message)) = Action.sent run.2 := by
  refine ⟨?_, ?_, ?_⟩
  · rw [step_machine, hmachine, Machine.run_visitor]
  · rw [step_notices, hmachine, Machine.run_visitor]
  · rw [step_sent, hmachine, Machine.run_visitor]

/-- The notices of a step come before those of the later ones. -/
theorem notices_step (n : Node) (now : Instant) (takes : Nat → Bool) (rest : List Happening) :
    n.notices (.step now takes :: rest) = (n.step now takes).2.notices ++ (n.step now takes).1.notices rest := rfl

/-- Between the start and the tick a turn hands over neither. -/
theorem exists_inner (n : Node) (now : Instant) :
    ∃ inner, n.inputs now = n.opening ++ (inner ++ [.tick]) ∧ ∀ i ∈ inner, i ≠ .start ∧ i ≠ .tick := by
  refine ⟨n.news now ++ ((if n.retries now then [.timer .retry] else []) ++ n.asked), ?_, fun i hi => ⟨?_, ?_⟩⟩
  · simp only [inputs, List.append_assoc]
  · rintro rfl
    simp only [news, List.mem_append] at hi
    rcases hi with (hheard | hselects) | hretries | hasked
    · obtain ⟨_, _, _, _, heq⟩ := n.heard_messages _ hheard
      cases heq
    · split at hselects <;> simp at hselects
    · split at hretries <;> simp at hretries
    · obtain ⟨_, _, heq⟩ := mem_asked hasked
      cases heq
  · exact n.tick_not_mem now i (List.mem_append_right _ hi)

/-- A step notes its tick if it brings a mark, and otherwise the visitor keeps its note. -/
theorem step_lastScan (hmachine : n.machine = .visitor v) (now : Instant) (takes : Nat → Bool) :
    (v.run (n.events now)).1.lastScan = if (n.step now takes).2.marksScan then n.tick + 1 else v.lastScan := by
  rw [events, Visitor.run_lastScan, Outcome.marksScan, (step_visitor hmachine now takes).2.1]
  rfl

/-- With the scan of a step every host is asked once to announce itself, and without one none is. -/
theorem step_callouts (hmachine : n.machine = .visitor v) (now : Instant) (takes : Nat → Bool)
    (hcount : (n.step now takes).2.notices.count .scanStarted ≤ 1) :
    (n.step now takes).2.callouts =
      if .scanStarted ∈ (n.step now takes).2.notices then v.rules.hosts.ids else [] := by
  obtain ⟨-, hnotices, hsent⟩ := step_visitor hmachine now takes
  have hscans := v.run_scans (n.events now)
  rw [← hnotices, ← hsent, List.filter_eq, List.filter_map] at hscans
  have hdests := congrArg (List.map Prod.fst) hscans
  rw [List.map_map] at hdests
  refine Eq.trans hdests ?_
  split
  · next hstarts =>
    rw [Nat.le_antisymm hcount (List.count_pos_iff.mpr hstarts)]
    simp [Function.comp_def]
  · next hquiet =>
    rw [List.count_eq_zero.mpr hquiet]
    rfl

/-- A step starts at most one scan: the first step does, a later one only if an interval has passed since the tick
noted before. A visitor that is scanning after a step has its window open or is not due for another scan. -/
theorem step_scans (hmachine : n.machine = .visitor v) (interval : 0 < v.rules.scanInterval.toNat) (now : Instant)
    (takes : Nat → Bool) :
    let notices := (n.step now takes).2.notices
    let w := (v.run (n.events now)).1
    notices.count .scanStarted ≤ 1 ∧
      (n.started = false → .scanStarted ∈ notices) ∧
      (n.started = true → .scanStarted ∈ notices → v.rules.scanInterval.toNat ≤ n.tick + 1 - v.lastScan) ∧
      (w.phase = .scanning → w.scanOpen = true ∨ n.tick + 1 - w.lastScan < v.rules.scanInterval.toNat) := by
  obtain ⟨inner, hinputs, hinner⟩ := n.exists_inner now
  intro notices w
  have hnotices : notices = _ := (step_visitor hmachine now takes).2.1
  rw [hnotices]
  have hevents : n.events now = (n.opening ++ (inner ++ [Input.tick])).map (n.moment now, ·) :=
    congrArg (List.map _) hinputs
  simp only [w, hevents, opening]
  cases hstarted : n.started with
  | false =>
    obtain ⟨hcount, hdue⟩ := v.first_turn_scans (n.moment now) hinner interval
    refine ⟨Nat.le_of_eq hcount, fun _ => List.count_pos_iff.mp ?_, nofun, hdue⟩
    exact Nat.lt_of_lt_of_eq Nat.zero_lt_one hcount.symm
  | true =>
    obtain ⟨hcount, hpassed, hdue⟩ := v.turn_scans (n.moment now) hinner interval
    exact ⟨hcount, nofun, fun _ => hpassed, hdue⟩

/-- The outcomes of all steps so far show the scans that the visitor has started, spaced by an interval, and the
visitor knows the last of the marks among them. -/
structure Paced (r : Rules) (log : List Outcome) (n : Node) (v : Visitor) : Prop where
  machine : n.machine = .visitor v
  rules : v.rules = r
  tick : n.tick = log.length
  started : n.started = true ↔ 0 < log.length
  noted : v.lastScan ≤ n.tick
  marked : 0 < log.length → ∃ k o, v.lastScan = k + 1 ∧ log[k]? = some o ∧ o.marksScan = true
  behind : ∀ i o, log[i]? = some o → .scanStarted ∈ o.notices → i < v.lastScan
  spaced : ∀ i j first second, i < j → log[i]? = some first → log[j]? = some second →
    .scanStarted ∈ first.notices → .scanStarted ∈ second.notices → i + r.scanInterval.toNat ≤ j
  single : ∀ o ∈ log, o.notices.count .scanStarted ≤ 1 ∧
    o.callouts = if .scanStarted ∈ o.notices then r.hosts.ids else []
  due : 0 < log.length → v.phase = .scanning → v.scanOpen = true ∨ n.tick - v.lastScan < r.scanInterval.toNat

/-- A step keeps the pace. -/
theorem Paced.step (h : Paced r log n v) (interval : 0 < r.scanInterval.toNat) (now : Instant) (takes : Nat → Bool) :
    Paced r (log ++ [(n.step now takes).2]) (n.step now takes).1 (v.run (n.events now)).1 := by
  obtain ⟨hcount, hfirst, hpassed, hdue⟩ := step_scans h.machine (h.rules ▸ interval) now takes
  have hnote := step_lastScan h.machine now takes
  have hcallouts := step_callouts h.machine now takes hcount
  have hnoted := h.noted
  rw [h.rules] at hpassed hdue hcallouts
  have hmark (hstarts : .scanStarted ∈ (n.step now takes).2.notices) : (n.step now takes).2.marksScan = true :=
    List.any_eq_true.mpr ⟨_, hstarts, rfl⟩
  constructor
  case machine => exact (step_visitor h.machine now takes).1
  case rules => rw [v.run_rules, h.rules]
  case tick => rw [step_tick, h.tick, List.length_append, List.length_singleton]
  case started =>
    have hstarted : (n.step now takes).1.started = true := n.turn_started now
    simp [hstarted]
  case noted =>
    rw [hnote, step_tick]
    split <;> omega
  case marked =>
    intro _
    rw [hnote]
    split
    · next hmarks => exact ⟨n.tick, _, rfl, by rw [h.tick, List.getElem?_concat_length], hmarks⟩
    · next hmarks =>
      -- the first step starts a scan, so one without a mark is a later one
      have hlater : 0 < log.length := h.started.mp (Bool.of_not_eq_false fun hnew => hmarks (hmark (hfirst hnew)))
      obtain ⟨k, o, hlast, ho, hmarked⟩ := h.marked hlater
      refine ⟨k, o, hlast, ?_, hmarked⟩
      rw [List.getElem?_append_left (List.getElem?_eq_some_iff.mp ho).1, ho]
  case behind =>
    intro i o ho hstarts
    rw [hnote]
    rcases getElem?_concat_eq_some ho with hold | ⟨rfl, rfl⟩
    · have hbehind := h.behind i o hold hstarts
      split <;> omega
    · rw [if_pos (hmark hstarts), h.tick]
      exact Nat.lt_succ_self _
  case spaced =>
    intro i j first second hij hi hj hfirst' hsecond
    rcases getElem?_concat_eq_some hj with hold | ⟨rfl, rfl⟩
    · rw [List.getElem?_append_left (Nat.lt_trans hij (List.getElem?_eq_some_iff.mp hold).1)] at hi
      exact h.spaced i j first second hij hi hold hfirst' hsecond
    · rw [List.getElem?_append_left hij] at hi
      have hbehind := h.behind i first hi hfirst'
      have hlong := hpassed (h.started.mpr (Nat.zero_lt_of_lt hij)) hsecond
      rw [h.tick] at hnoted hlong
      omega
  case single =>
    intro o ho
    rcases List.mem_append.mp ho with hold | hnew
    · exact h.single o hold
    · rw [List.mem_singleton.mp hnew]
      exact ⟨hcount, hcallouts⟩
  case due =>
    intro _ hphase
    rw [step_tick]
    exact hdue hphase

/-- Between two steps of the node a scan is under way. -/
structure Scans (n : Node) : Prop where
  started : n.started = true
  visitor : ∃ v, n.machine = .visitor v ∧ v.Scanning
  untaken : n.inbox.signals.isSet .selectionTimeout = false

/-- Polling lets the timer that ends a scan fire if it is due. -/
theorem Scans.polled (h : n.Scans) (now : Instant) :
    (n.polled now).Watches (if n.timers.selection.isDue now then .idle else n.timers.selection)
      (n.timers.selection.isDue now) := by
  have hbegin : Turn.begin { node := { n with now := now, tick := n.tick + 1 } } =
      { node := { n with now := now, tick := n.tick + 1 } } := if_pos h.started
  unfold Node.polled
  dsimp only
  rw [hbegin]
  refine ⟨h.visitor, Timers.alarm_poll now n.timers n.inbox.signals .selection, ?_⟩
  change (Timers.poll now n.timers n.inbox.signals).2.isSet TimerKind.selection.signal = _
  rw [Timers.isSet_poll_signal, show n.inbox.signals.isSet TimerKind.selection.signal = false from h.untaken,
    Bool.or_false]
  rfl

/-- Reading the frames does not end a scan. -/
theorem Scans.read (h : n.Scans) (now : Instant) :
    (n.read now).Watches (if n.timers.selection.isDue now then .idle else n.timers.selection)
      (n.timers.selection.isDue now) :=
  have hlasts := Turn.lasts_watches _ _
  hlasts.onSignal (by decide) (fun _ => hlasts.readFrames fun _ _ _ _ => ⟨nofun, nofun⟩) (h.polled now)

/-- A step at which the timer is due ends the scan. -/
theorem Scans.step_of_due (h : n.Scans) (hdue : n.timers.selection.isDue now = true) (takes : Nat → Bool) :
    ∃ x ∈ (n.step now takes).2.notices, x.endsScan = true := by
  obtain ⟨v, hmachine, -⟩ := h.visitor
  obtain ⟨w, hw, hscanning⟩ := (h.read now).visitor
  have hselects : n.selects now = true := (h.read now).fired.trans hdue
  have hbefore := machine_of_follows (n.read_follows now)
  rw [hmachine, Machine.run_visitor] at hbefore
  obtain rfl := Machine.visitor.inj (hw.symm.trans hbefore)
  have hsplit : n.inputs now = (n.opening ++ n.heard) ++
      .timer .selection :: ((if n.retries now then [.timer .retry] else []) ++ (n.asked ++ [.tick])) := by
    rw [inputs, news, if_pos hselects]
    simp only [List.append_assoc, List.singleton_append]
  obtain ⟨x, hx, hends⟩ := hscanning.ends (n.moment now)
  refine ⟨x, ?_, hends⟩
  rw [(step_visitor hmachine now takes).2.1, events, hsplit, List.map_append, Visitor.run_append, List.map_cons,
    Visitor.run_cons, Action.emitted_append, Action.emitted_append]
  exact List.mem_append_right _ (List.mem_append_left _ hx)

/-- A step at which the timer is not due leaves the scan under way and the timer as it is. -/
theorem Scans.step (h : n.Scans) (hdue : n.timers.selection.isDue now = false) (takes : Nat → Bool) :
    (n.step now takes).1.Scans ∧ (n.step now takes).1.timers.selection = n.timers.selection := by
  have hread := h.read now
  rw [hdue, if_neg Bool.false_ne_true] at hread
  have hselected : (n.selected now).Watches n.timers.selection false := by
    have hunset : ¬ (n.read now).node.inbox.signals.isSet .selectionTimeout = true := Bool.eq_false_iff.mp hread.fired
    rw [selected, Turn.onSignal, if_neg hunset]
    exact hread
  have hlasts := Turn.lasts_watches n.timers.selection false
  have hretried : (n.retried now).Watches n.timers.selection false :=
    hlasts.onSignal (by decide) (fun s => hlasts.feed s (.timer .retry) ⟨nofun, nofun⟩) hselected
  have hintended : (n.intended now).Watches n.timers.selection false :=
    hlasts.onSignal (by decide) (fun _ => hlasts.readIntents fun _ => ⟨nofun, nofun⟩) hretried
  have hconfirmed : ((n.intended now).onSignal .sendConfirmed (Turn.counting Turn.countConfirmation)).Watches
      n.timers.selection false := hlasts.onSignal (by decide) (fun _ => hlasts.counting _) hintended
  have hturn : (n.turn now).Watches n.timers.selection false := hlasts.feed _ .tick ⟨nofun, nofun⟩ hconfirmed
  exact ⟨⟨n.turn_started now, hturn.visitor, hturn.fired⟩, hturn.timer⟩

/-- A scan that is under way ends as soon as a step finds its timer due. -/
theorem Scans.ends (h : n.Scans) {future : List Happening}
    (hdue : ∃ now takes, .step now takes ∈ future ∧ n.timers.selection.isDue now = true) :
    ∃ x ∈ n.notices future, x.endsScan = true := by
  obtain ⟨now, takes, hmem, hnow⟩ := hdue
  induction future generalizing n with
  | nil => cases hmem
  | cons e rest ih =>
    cases e with
    | deliver f =>
      have huntaken := (n.inbox.isSet_deliver_of_ne f (g := .selectionTimeout) nofun).trans h.untaken
      exact ih (n := n.deliver f) ⟨h.started, h.visitor, huntaken⟩ (by simpa using hmem) hnow
    | submit i =>
      have huntaken := (n.inbox.isSet_submit_of_ne i (g := .selectionTimeout) nofun).trans h.untaken
      exact ih (n := n.submit i) ⟨h.started, h.visitor, huntaken⟩ (by simpa using hmem) hnow
    | confirm => exact ih (n := n.confirm) ⟨h.started, h.visitor, h.untaken⟩ (by simpa using hmem) hnow
    | step now' takes' =>
      rw [notices_step]
      cases hdue' : n.timers.selection.isDue now' with
      | true =>
        obtain ⟨x, hx, hends⟩ := h.step_of_due hdue' takes'
        exact ⟨x, List.mem_append_left _ hx, hends⟩
      | false =>
        obtain ⟨hstill, htimer⟩ := h.step hdue' takes'
        have hlater : .step now takes ∈ rest := (List.mem_cons.mp hmem).resolve_left fun heq => by
          obtain ⟨rfl, -⟩ := Happening.step.inj heq
          exact Bool.false_ne_true (hdue'.symm.trans hnow)
        obtain ⟨x, hx, hends⟩ := ih hstill hlater (htimer ▸ hnow)
        exact ⟨x, List.mem_append_right _ hx, hends⟩

end Node

end BoothFloor
