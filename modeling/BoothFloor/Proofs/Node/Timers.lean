import BoothFloor.Proofs.Node.Life
import BoothFloor.Proofs.Visitor.Timers

/-!
# No stale timeout

Before and after each of its steps a visitor's node has a timer armed exactly while the visitor waits for
what that timer guards, and no expiry is left to take. In the middle of a step a timer that has fired is
still live, until the answer that it guards has come or the timeout is handed to the visitor. So the
visitor is never told of a timeout for which it does not wait.
-/

namespace BoothFloor

/-- What is not in the first of two rows stands in the second one. -/
theorem eq_append_of_not_mem_left {α : Type} {x : α} {first second before after : List α} (hx : x ∉ first)
    (h : first ++ second = before ++ x :: after) :
    ∃ pre, before = first ++ pre ∧ second = pre ++ x :: after := by
  rcases List.append_eq_append_iff.mp h with ⟨pre, hbefore, hsecond⟩ | ⟨mid, hfirst, hrest⟩
  · exact ⟨pre, hbefore, hsecond⟩
  · cases mid with
    | nil => exact ⟨[], by simpa using hfirst.symm, hrest.symm⟩
    | cons y mid =>
      obtain ⟨rfl, -⟩ := List.cons.inj hrest
      exact absurd (hfirst ▸ List.mem_append_right _ List.mem_cons_self) hx

/-- What is not in the second of two rows stands in the first one. -/
theorem eq_append_of_not_mem_right {α : Type} {x : α} {first second before after : List α} (hx : x ∉ second)
    (h : first ++ second = before ++ x :: after) : ∃ mid, first = before ++ x :: mid := by
  rcases List.append_eq_append_iff.mp h with ⟨pre, -, hsecond⟩ | ⟨mid, hfirst, hrest⟩
  · exact absurd (hsecond ▸ List.mem_append_right _ List.mem_cons_self) hx
  · cases mid with
    | nil => exact absurd (show x :: after = second from hrest) fun heq => hx (heq ▸ List.mem_cons_self)
    | cons y mid =>
      obtain ⟨rfl, -⟩ := List.cons.inj hrest
      exact ⟨mid, hfirst⟩

/-- An element that a row holds in one place at most, if at all, stands in that place. -/
theorem eq_of_optional {α : Type} {x : α} {first second before after : List α} {b : Bool} (hfirst : x ∉ first)
    (hsecond : x ∉ second) (h : first ++ ((if b then [x] else []) ++ second) = before ++ x :: after) :
    b = true ∧ before = first := by
  cases b with
  | false =>
    have hmem : x ∈ first ++ second := h ▸ List.mem_append_right _ List.mem_cons_self
    exact absurd hmem (by simp [hfirst, hsecond])
  | true => exact ⟨rfl, ((List.append_cons_inj_of_notMem hfirst hsecond).mp h).1.symm⟩

/-- The timers of a node together with its signals. -/
def Node.alarms (n : Node) : Alarms := ⟨n.timers, n.inbox.signals⟩

namespace Turn

/-- What outlasts the handing over of some inputs and all work on the mail and the counters, as long as it leaves alone
the signals that are minded. -/
structure Lasts (P : Turn → Prop) (given : Input → Prop) (minded : Signal → Prop) : Prop where
  feed : ∀ t i, given i → P t → P (t.feed i)
  frame : ∀ s t : Turn, t.node.machine = s.node.machine → t.node.timers = s.node.timers → t.node.now = s.node.now →
    t.sent = s.sent → (∀ g, minded g → t.node.inbox.signals.isSet g = s.node.inbox.signals.isSet g) → P s → P t

namespace Lasts

variable {P : Turn → Prop} {given : Input → Prop} {minded : Signal → Prop} {t : Turn}

/-- Counting does no harm. -/
theorem counting (hP : Lasts P given minded) (f : Counters → Counters) (h : P t) : P (t.counting f) :=
  hP.frame t _ rfl rfl rfl rfl (fun _ _ => rfl) h

/-- Acting on a signal that is not minded does no harm, if the act does none. -/
theorem onSignal (hP : Lasts P given minded) {g : Signal} (hg : ¬ minded g) {act : Turn → Turn}
    (hact : ∀ s, P s → P (act s)) (h : P t) : P (t.onSignal g act) := by
  unfold Turn.onSignal
  split
  · refine hact _ (hP.frame t _ rfl rfl rfl rfl (fun g' hg' => ?_) h)
    have hother : g' ≠ g := fun heq => hg (heq ▸ hg')
    simp [Inbox.clear, Signals.isSet_clear, hother]
  · exact h

/-- What each step of a row leaves, the row leaves. -/
theorem foldl {α : Type} {act : Turn → α → Turn} (hact : ∀ s a, P s → P (act s a)) (row : List α) (h : P t) :
    P (row.foldl act t) := by
  induction row generalizing t with
  | nil => exact h
  | cons a rest ih => exact ih (hact t a h)

/-- Reading the frames does no harm, if messages do none. -/
theorem readFrames (hP : Lasts P given minded)
    (hmessage : ∀ source message rssi snr, given (.message source message rssi snr)) (h : P t) : P t.readFrames := by
  have hread (s : Turn) (f : Frame) (hs : P s) : P (s.readFrame f) := by
    have hcounted : P (s.counting countFrame) := hP.counting _ hs
    unfold readFrame
    dsimp only
    split
    · exact hP.feed _ _ (hmessage _ _ _ _) hcounted
    · exact hP.counting _ hcounted
  exact foldl hread _
    (hP.frame t { t with node := { t.node with inbox := t.node.inbox.drainFrames.2 } } rfl rfl rfl rfl
      (fun _ _ => rfl) h)

/-- Handling the intents does no harm, if intents do none. -/
theorem readIntents (hP : Lasts P given minded) (hintent : ∀ i, given (.intent i)) (h : P t) : P t.readIntents :=
  foldl (fun s i => hP.feed s (.intent i) (hintent i)) _
    (hP.frame t { t with node := { t.node with inbox := t.node.inbox.drainIntents.2 } } rfl rfl rfl rfl
      (fun _ _ => rfl) h)

end Lasts

/-- A visitor in the middle of a turn is coupled with its timers. -/
def Coupled (t : Turn) : Prop := ∃ v, t.node.machine = .visitor v ∧ v.Coupled t.node.alarms

variable {s t : Turn}

/-- Work on the mail and the counters keeps a visitor coupled with its timers. -/
theorem Coupled.of_eq (h : t.Coupled) (hmachine : s.node.machine = t.node.machine)
    (htimers : s.node.timers = t.node.timers)
    (hsignals : ∀ k : TimerKind,
      s.node.inbox.signals.isSet k.signal = t.node.inbox.signals.isSet k.signal) : s.Coupled := by
  obtain ⟨v, hv, hcoupled⟩ := h
  refine ⟨v, hmachine.trans hv, ?_⟩
  rw [Node.alarms, htimers]
  exact hcoupled.of_signals hsignals

/-- What becomes of a visitor and its timers when an input is handed over. -/
theorem feed_visitor {v : Visitor} (hmachine : t.node.machine = .visitor v) (i : Input) :
    (t.feed i).node.machine = .visitor (v.react t.moment i).1 ∧
      (t.feed i).node.alarms = Action.alarmsAfter t.node.now t.node.alarms (v.react t.moment i).2 := by
  rw [feed_eq, hmachine]
  exact ⟨rfl, rfl⟩

/-- Handing over anything but a timeout keeps a visitor coupled with its timers. -/
theorem Coupled.feed (h : t.Coupled) {i : Input} (hother : ∀ k, i ≠ .timer k)
    (hstart : ∀ v, t.node.machine = .visitor v → i = .start → v.phase = .scanning) :
    (t.feed i).Coupled := by
  obtain ⟨v, hmachine, hcoupled⟩ := h
  obtain ⟨hmachine', halarms⟩ := feed_visitor hmachine i
  refine ⟨_, hmachine', ?_⟩
  rw [halarms]
  exact hcoupled.react hother (hstart v hmachine) t.node.now

/-- Nothing but the start and the timeouts can part a visitor from its timers. -/
theorem lasts_coupled : Lasts Coupled (fun i => i ≠ .start ∧ ∀ k, i ≠ .timer k) (·.isExternal = false) where
  feed := fun _ _ hi h => h.feed hi.2 fun _ _ hstart => absurd hstart hi.1
  frame := fun _ _ hmachine htimers _ _ hsignals h =>
    h.of_eq hmachine htimers fun k => hsignals k.signal (by cases k <;> rfl)

/-- Handling a timeout keeps a visitor coupled with its timers. -/
theorem Coupled.onTimer (h : t.Coupled) (k : TimerKind) :
    (t.onSignal k.signal (·.feed (.timer k))).Coupled := by
  unfold Turn.onSignal
  split
  · next hset =>
    obtain ⟨v, hmachine, hcoupled⟩ := h
    let taken : Turn := { t with node := { t.node with inbox := t.node.inbox.clear k.signal } }
    obtain ⟨hmachine', halarms⟩ := feed_visitor (t := taken) hmachine (.timer k)
    refine ⟨_, hmachine', ?_⟩
    rw [halarms]
    exact hcoupled.timeout hset t.node.now
  · exact h

/-- An expiry that was handled is gone. -/
theorem onTimer_isSet (t : Turn) (k : TimerKind) :
    (t.onSignal k.signal (·.feed (.timer k))).node.inbox.signals.isSet k.signal = false := by
  unfold Turn.onSignal
  split
  · simp [feed_eq, Action.isSet_alarmsAfter, Inbox.clear, Signals.isSet_clear]
  · next hunset => exact Bool.eq_false_iff.mpr hunset

/-- No expiry comes up during the rest of a turn. -/
theorem Follows.isSet_eq_false {inputs : List Input} (h : Follows s t inputs) {k : TimerKind}
    (hs : s.node.inbox.signals.isSet k.signal = false) : t.node.inbox.signals.isSet k.signal = false := by
  rw [Bool.eq_false_iff]
  exact fun ht => Bool.false_ne_true (hs.symm.trans (h.signal k ht).1)

end Turn

namespace Node

/-- Between two steps the visitor of a node is coupled with its timers and no expiry is left to take; a
visitor that has not started yet is in the scanning phase. -/
structure Quiet (n : Node) : Prop where
  coupled : ∃ v, n.machine = .visitor v ∧ v.Coupled n.alarms ∧ (n.started = false → v.phase = .scanning)
  untaken : ∀ k : TimerKind, n.inbox.signals.isSet k.signal = false

variable {n : Node}

/-- A visitor's node that has been set up is quiet. -/
theorem quiet_fresh {r : Rules} {id : NodeId} (hguest : r.isHost id = false) : (fresh r id).Quiet := by
  exact ⟨⟨_, machine_fresh hguest, Visitor.coupled_ofRules id r, fun _ => rfl⟩, fun k => by cases k <;> rfl⟩

/-- A step begins coupled. -/
theorem Quiet.polled (h : n.Quiet) (now : Instant) : (n.polled now).Coupled := by
  obtain ⟨v, hmachine, hcoupled, hfresh⟩ := h.coupled
  let woken : Turn := { node := { n with now := now, tick := n.tick + 1 } }
  have hbegun : woken.begin.Coupled := by
    have hwoken : woken.Coupled := ⟨v, hmachine, hcoupled⟩
    unfold Turn.begin
    split
    · exact hwoken
    · next hnew =>
      have hstarted : Turn.Coupled { woken with node := { woken.node with started := true } } :=
        hwoken.of_eq rfl rfl fun _ => rfl
      refine hstarted.feed (i := .start) nofun fun w hw _ => ?_
      obtain rfl := Machine.visitor.inj (hmachine.symm.trans hw)
      exact hfresh (Bool.eq_false_iff.mpr hnew)
  obtain ⟨w, hw, hcoupled'⟩ := hbegun
  have hnow : woken.begin.node.now = now := congrArg Moment.now (Turn.begin_follows woken).moment
  refine ⟨w, hw, ?_⟩
  have hpolled := hcoupled'.poll woken.begin.node.now
  exact hpolled

/-- Reading the frames leaves the visitor coupled. -/
theorem Quiet.read (h : n.Quiet) (now : Instant) : (n.read now).Coupled :=
  Turn.lasts_coupled.onSignal (by decide) (fun _ => Turn.lasts_coupled.readFrames fun _ _ _ _ => ⟨nofun, nofun⟩) (h.polled now)

/-- Handling the end of a scan leaves the visitor coupled. -/
theorem Quiet.selected (h : n.Quiet) (now : Instant) : (n.selected now).Coupled :=
  (h.read now).onTimer .selection

/-- A turn leaves the visitor coupled. -/
theorem Quiet.turn (h : n.Quiet) (now : Instant) : (n.turn now).Coupled := by
  have hretried : (n.retried now).Coupled := (h.selected now).onTimer .retry
  have hintended : (n.intended now).Coupled :=
    Turn.lasts_coupled.onSignal (by decide) (fun _ => Turn.lasts_coupled.readIntents fun _ => ⟨nofun, nofun⟩) hretried
  have hconfirmed : ((n.intended now).onSignal .sendConfirmed (Turn.counting Turn.countConfirmation)).Coupled :=
    Turn.lasts_coupled.onSignal (by decide) (fun _ => Turn.lasts_coupled.counting _) hintended
  exact hconfirmed.feed (i := .tick) nofun nofun

/-- A turn leaves no expiry to take. -/
theorem turn_untaken (n : Node) (now : Instant) (k : TimerKind) :
    (n.turn now).node.inbox.signals.isSet k.signal = false := by
  have hretried : (n.retried now).node.inbox.signals.isSet k.signal = false := by
    cases k with
    | retry => exact (n.selected now).onTimer_isSet .retry
    | selection =>
      exact (n.retried_follows now).isSet_eq_false (k := .selection) ((n.read now).onTimer_isSet .selection)
  have hintended := Turn.onSignal_follows .keyboardIntent Turn.readIntents
    ((n.retried now).node.inbox.intents.items.map .intent) (n.retried now) fun s hs => by
      subst hs
      exact Turn.readIntents_follows _
  have hconfirmed := Turn.onSignal_follows .sendConfirmed (Turn.counting Turn.countConfirmation) []
    (n.intended now) fun s _ => s.counting_follows _
  exact ((hintended.trans hconfirmed).trans (Turn.feed_follows _ .tick)).isSet_eq_false hretried

/-- A step leaves the node quiet. -/
theorem Quiet.step (h : n.Quiet) (now : Instant) (takes : Nat → Bool) : (n.step now takes).1.Quiet := by
  obtain ⟨v, hmachine, hcoupled⟩ := h.turn now
  refine ⟨⟨v, hmachine, hcoupled, fun hnew => ?_⟩, n.turn_untaken now⟩
  exact absurd ((n.turn_started now).symm.trans hnew) (by decide)

/-- Mail that is handed in leaves the node quiet. -/
theorem Quiet.announce (h : n.Quiet) {inbox : Inbox}
    (hsame : ∀ k : TimerKind, inbox.signals.isSet k.signal = n.inbox.signals.isSet k.signal) :
    ({ n with inbox := inbox } : Node).Quiet := by
  obtain ⟨v, hmachine, hcoupled, hfresh⟩ := h.coupled
  exact ⟨⟨v, hmachine, hcoupled.of_signals hsame, hfresh⟩, fun k => (hsame k).trans (h.untaken k)⟩

/-- Whatever happens to a node leaves it quiet. -/
theorem Quiet.undergo (h : n.Quiet) (e : Happening) : (n.undergo e).Quiet := by
  cases e with
  | deliver f => exact h.announce fun k => n.inbox.isSet_deliver_of_ne f (k.signal_ne_of_isExternal rfl)
  | submit i => exact h.announce fun k => n.inbox.isSet_submit_of_ne i (k.signal_ne_of_isExternal rfl)
  | confirm =>
    refine h.announce fun k => ?_
    simp [Inbox.confirm, Inbox.raise, Signals.isSet_raise, k.signal_ne_of_isExternal (g := .sendConfirmed) rfl]
  | step now takes => exact h.step now takes

/-- An armed timer of a quiet node is one for which the visitor waits, and the other way round. -/
theorem Quiet.isArmed_eq (h : n.Quiet) {v : Visitor} (hmachine : n.machine = .visitor v) (k : TimerKind) :
    n.timers.isArmed k = v.wants k := by
  obtain ⟨w, hw, hcoupled, -⟩ := h.coupled
  obtain rfl := Machine.visitor.inj (hw.symm.trans hmachine)
  rw [← hcoupled.live k, Alarms.isLive, show n.alarms.signals.isSet k.signal = false from h.untaken k,
    Bool.or_false]
  rfl

/-- No timeout is handed over but by the signal of its timer. -/
theorem timer_not_mem (n : Node) (k : TimerKind) :
    .timer k ∉ n.opening ∧ .timer k ∉ n.heard ∧ .timer k ∉ n.asked := by
  refine ⟨fun hmem => ?_, fun hmem => ?_, fun hmem => ?_⟩
  · cases mem_opening hmem
  · obtain ⟨_, _, _, _, heq⟩ := n.heard_messages _ hmem
    cases heq
  · obtain ⟨_, _, heq⟩ := mem_asked hmem
    cases heq

/-- The end of a scan is handed over behind what was heard, if its signal is set by then. -/
theorem before_selection {now : Instant} {before after : List Input}
    (h : n.inputs now = before ++ .timer .selection :: after) :
    n.selects now = true ∧ before = n.opening ++ n.heard := by
  obtain ⟨hopening, hheard, hasked⟩ := n.timer_not_mem .selection
  have hlater : .timer .selection ∉
      (if n.retries now then [Input.timer .retry] else []) ++ (n.asked ++ [.tick]) := by
    rw [List.mem_append, not_or]
    exact ⟨by split <;> simp, by simp [hasked]⟩
  rw [inputs, news, List.append_assoc, ← List.append_assoc] at h
  exact eq_of_optional (by simp [hopening, hheard]) hlater h

/-- An overdue answer is handed over behind the other news, if its signal is set by then. -/
theorem before_retry {now : Instant} {before after : List Input}
    (h : n.inputs now = before ++ .timer .retry :: after) :
    n.retries now = true ∧ before = n.opening ++ n.news now := by
  obtain ⟨hopening, hheard, hasked⟩ := n.timer_not_mem .retry
  have hnews : .timer .retry ∉ n.news now := by
    rw [news, List.mem_append, not_or]
    exact ⟨hheard, by split <;> simp⟩
  rw [inputs, ← List.append_assoc] at h
  exact eq_of_optional (by simp [hopening, hnews]) (by simp [hasked]) h

/-- The machine in the middle of a turn is the one after its run over the inputs so far. -/
theorem machine_of_follows {now : Instant} {t : Turn} {inputs : List Input}
    (h : Turn.Follows (n.polled now) t inputs) :
    t.node.machine = (n.machine.run ((n.opening ++ inputs).map (n.moment now, ·))).1 := by
  obtain ⟨hmachine, -, -, -, hmoment, -⟩ := n.polled_machine now
  rw [h.machine, hmachine, hmoment, List.map_append, Machine.run, Machine.run, Machine.run, runWith_append]
  rfl

/-- A timeout reaches a visitor that waits for what the timer guards. -/
theorem Quiet.timeout (h : n.Quiet) {now : Instant} {k : TimerKind} {before after : List Input}
    (hinputs : n.inputs now = before ++ .timer k :: after) {w : Visitor}
    (hw : (n.machine.run (before.map (n.moment now, ·))).1 = .visitor w) :
    w.wants k = true ∧ w.ScansInPhase := by
  cases k with
  | selection =>
    obtain ⟨hset, rfl⟩ := n.before_selection hinputs
    obtain ⟨w', hw', hcoupled⟩ := h.read now
    rw [machine_of_follows (n.read_follows now)] at hw'
    obtain rfl := Machine.visitor.inj (hw'.symm.trans hw)
    exact ⟨hcoupled.wants_of_isSet hset, hcoupled.scansInPhase⟩
  | retry =>
    obtain ⟨hset, rfl⟩ := n.before_retry hinputs
    obtain ⟨w', hw', hcoupled⟩ := h.selected now
    rw [machine_of_follows (n.selected_follows now)] at hw'
    obtain rfl := Machine.visitor.inj (hw'.symm.trans hw)
    exact ⟨hcoupled.wants_of_isSet hset, hcoupled.scansInPhase⟩

/-- A message that turns up in a turn was heard. -/
theorem message_of_inputs {now : Instant} {before after : List Input} {source : NodeId} {msg : Message}
    {rssi : Int16} {snr : Int8}
    (hinputs : n.inputs now = before ++ .message source msg rssi snr :: after) :
    ∃ pre mid, before = n.opening ++ pre ∧ n.heard = pre ++ .message source msg rssi snr :: mid := by
  obtain ⟨later, hsplit, hquiet, -⟩ := n.exists_later now
  rw [hsplit] at hinputs
  obtain ⟨pre, rfl, hrest⟩ := eq_append_of_not_mem_left (fun hmem => by cases mem_opening hmem) hinputs
  obtain ⟨mid, hheard⟩ := eq_append_of_not_mem_right (hquiet _ _ _ _) hrest
  exact ⟨pre, mid, rfl, hheard⟩

/-- Once the visitor has accepted an answer, no overdue answer is left to handle in the turn. -/
theorem not_overdue_of_accepts {now : Instant} {before after : List Input} {source : NodeId} {msg : Message}
    {rssi : Int16} {snr : Int8}
    (hinputs : n.inputs now = before ++ .message source msg rssi snr :: after) {w : Visitor}
    (hw : (n.machine.run (before.map (n.moment now, ·))).1 = .visitor w) (haccepts : w.Accepts source msg) :
    .timer .retry ∉ n.inputs now := by
  intro hoverdue
  obtain ⟨first, last, hsplit⟩ := List.append_of_mem hoverdue
  have hsettles := settles_of_retries (n.before_retry hsplit).1
  obtain ⟨pre, mid, rfl, hheard⟩ := message_of_inputs hinputs
  have hstops := haccepts.stops (n.moment now) rssi snr
  have hmem : .stopTimer .retry ∈ ((n.machine.run (n.opening.map (n.moment now, ·))).1.run
      ((n.news now).map (n.moment now, ·))).2 := by
    rw [List.map_append, Machine.run, runWith_append] at hw
    rw [news, hheard, List.append_assoc, List.map_append, Machine.run, runWith_append]
    refine List.mem_append_right _ ?_
    change _ ∈ (runWith Machine.react (runWith Machine.react _ _).1 (_ :: _)).2
    rw [show (runWith Machine.react (n.machine.run _).1 _).1 = .visitor w from hw]
    exact List.mem_append_left _ hstops
  exact absurd (hsettles _ hmem) (by decide)

/-- Whatever has happened to the node of a visitor, a timer is armed exactly while the visitor waits for what
it guards, and no expiry is left to take. Whenever the next step hands over a timeout, the visitor waits
for it at that very moment and acts on it; once it has accepted an answer, no overdue answer is handed
over in that step, whether or not the deadline has passed. -/
theorem live_timeouts_awaited {id : NodeId} {r : Rules} {new : Node} (hnew : ofRules id r = .ok new)
    (hguest : r.isHost id = false) (past : List Happening) :
    let n := new.live past
    ∃ v, n.machine = .visitor v ∧
      (∀ k : TimerKind, n.inbox.signals.isSet k.signal = false) ∧
      (n.timers.isArmed .retry = true ↔ v.phase.awaitsAnswer = true) ∧
      (n.timers.isArmed .selection = true ↔ v.scanOpen = true) ∧
      ∀ now takes,
        (n.step now takes).1.machine = (n.machine.run ((n.inputs now).map (n.moment now, ·))).1 ∧
        ∀ before i after, n.inputs now = before ++ i :: after →
          ∃ w, (n.machine.run (before.map (n.moment now, ·))).1 = .visitor w ∧
            (i = .timer .retry → w.phase.awaitsAnswer = true) ∧
            (i = .timer .selection → w.phase = .scanning ∧ w.scanOpen = true) ∧
            (∀ k, i = .timer k → (w.react (n.moment now) i).2 ≠ []) ∧
            ∀ source msg rssi snr, i = .message source msg rssi snr → w.Accepts source msg →
              .timer .retry ∉ n.inputs now := by
  intro n
  obtain ⟨-, -, rfl⟩ := ofRules_eq_ok_iff.mp hnew
  have hquiet : n.Quiet := live_keeps (quiet_fresh hguest) (fun _ e h => h.undergo e) past
  obtain ⟨v, hmachine, -, -⟩ := hquiet.coupled
  refine ⟨v, hmachine, hquiet.untaken, ?_, ?_, fun now takes => ⟨n.step_machine now takes, ?_⟩⟩
  · rw [hquiet.isArmed_eq hmachine]
    rfl
  · rw [hquiet.isArmed_eq hmachine]
    rfl
  · intro before i after hinputs
    have hw : (n.machine.run (before.map (n.moment now, ·))).1 =
        .visitor (v.run (before.map (n.moment now, ·))).1 := by
      rw [hmachine, Machine.run_visitor]
    refine ⟨_, hw, ?_, ?_, ?_, ?_⟩
    · rintro rfl
      exact (hquiet.timeout hinputs hw).1
    · rintro rfl
      obtain ⟨hopen, hscan⟩ := hquiet.timeout hinputs hw
      exact ⟨hscan hopen, hopen⟩
    · rintro k rfl
      obtain ⟨hwants, hscan⟩ := hquiet.timeout hinputs hw
      exact Visitor.acts_of_wants hscan hwants
    · rintro source msg rssi snr rfl
      exact not_overdue_of_accepts hinputs hw

/-- A visitor looks around, finds a booth and asks it for an introduction, which comes 400 milliseconds
later. -/
def lateIntroduction : List Happening :=
  [.step ⟨0⟩ fun _ => true,
    .deliver ⟨⟨1⟩, Wire.encode (.boothAnnounce ⟨⟨1⟩, 0, 2, 0⟩), -50, 5⟩,
    .step ⟨300⟩ fun _ => true,
    .deliver ⟨⟨1⟩, Wire.encode (.boothInfo 0 2 0 "Booth 1"), -50, 5⟩]

/-- The introduction is overdue when it is read, and yet the visitor does not ask for it again. -/
theorem live_timeouts_awaited_lateIntroduction :
    let n := (fresh .brisk ⟨4⟩).live lateIntroduction
    n.timers.isArmed .retry = true ∧ n.timers.retry.isDue ⟨700⟩ = true ∧
      .timer .retry ∉ n.inputs ⟨700⟩ := by
  intro n
  have hnew : ofRules ⟨4⟩ .brisk = .ok (fresh .brisk ⟨4⟩) :=
    ofRules_eq_ok_iff.mpr ⟨by decide, by decide, rfl⟩
  obtain ⟨v, hmachine, -, hretry, -, hsteps⟩ :=
    live_timeouts_awaited hnew (by decide) lateIntroduction
  have hphase : v.phase = .connected ⟨1⟩ .boothInfo := by
    have hbooth : (match n.machine with | .visitor w => w.phase | .host _ => .scanning) =
        .connected ⟨1⟩ .boothInfo := by decide
    rwa [hmachine] at hbooth
  have hinputs : n.inputs ⟨700⟩ =
      [] ++ .message ⟨1⟩ (.boothInfo 0 2 0 "Booth 1") (-50) 5 :: [.tick] := by decide
  obtain ⟨w, hw, -, -, -, haccepts⟩ := (hsteps ⟨700⟩ fun _ => true).2 _ _ _ hinputs
  obtain rfl : v = w := Machine.visitor.inj (hmachine.symm.trans hw)
  refine ⟨hretry.mpr (by rw [hphase]; rfl), by decide, ?_⟩
  exact haccepts _ _ _ _ rfl (.introduction _ _ _ _ _ hphase)

end Node

end BoothFloor
