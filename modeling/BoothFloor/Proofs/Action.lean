import BoothFloor.Action

/-!
# What becomes of actions

The messages among some actions, action by action, and what actions do to the signals: they can take
back the signals of the two timers and touch no others.
-/

namespace BoothFloor

namespace Action

/-- No action sends nothing. -/
@[simp]
theorem sent_nil : sent [] = [] := rfl

/-- A message comes before those of later actions. -/
@[simp]
theorem sent_cons_send (dest : NodeId) (m : Message) (acts : List Action) :
    sent (send dest m :: acts) = (dest, m) :: sent acts := rfl

/-- A notice is no message. -/
@[simp]
theorem sent_cons_emit (n : Notice) (acts : List Action) : sent (emit n :: acts) = sent acts := rfl

/-- Starting a timer sends nothing. -/
@[simp]
theorem sent_cons_startTimer (k : TimerKind) (d : Span) (acts : List Action) :
    sent (startTimer k d :: acts) = sent acts := rfl

/-- Stopping a timer sends nothing. -/
@[simp]
theorem sent_cons_stopTimer (k : TimerKind) (acts : List Action) :
    sent (stopTimer k :: acts) = sent acts := rfl

/-- No action reports nothing. -/
@[simp]
theorem emitted_nil : emitted [] = [] := rfl

/-- A notice comes before those of later actions. -/
@[simp]
theorem emitted_cons_emit (n : Notice) (acts : List Action) : emitted (emit n :: acts) = n :: emitted acts := rfl

/-- A message is no notice. -/
@[simp]
theorem emitted_cons_send (dest : NodeId) (m : Message) (acts : List Action) :
    emitted (send dest m :: acts) = emitted acts := rfl

/-- Starting a timer reports nothing. -/
@[simp]
theorem emitted_cons_startTimer (k : TimerKind) (d : Span) (acts : List Action) :
    emitted (startTimer k d :: acts) = emitted acts := rfl

/-- Stopping a timer reports nothing. -/
@[simp]
theorem emitted_cons_stopTimer (k : TimerKind) (acts : List Action) :
    emitted (stopTimer k :: acts) = emitted acts := rfl

/-- A row of messages is sent as it is. -/
theorem sent_map_send {α : Type} (dest : α → NodeId) (m : α → Message) (l : List α) :
    sent (l.map fun a => send (dest a) (m a)) = l.map fun a => (dest a, m a) := by
  induction l with
  | nil => rfl
  | cons a rest ih => simp only [List.map_cons, sent_cons_send, ih]

/-- A row of messages reports nothing. -/
@[simp]
theorem emitted_map_send {α : Type} (dest : α → NodeId) (m : α → Message) (l : List α) :
    emitted (l.map fun a => send (dest a) (m a)) = [] := by
  simp [emitted]

end Action

/-- The signals on which the machine's timers have no influence. -/
def Signal.isExternal : Signal → Bool
  | .selectionTimeout | .retryTimeout => false
  | _ => true

/-- The signals of the timers are not among them. -/
theorem TimerKind.signal_ne_of_isExternal (k : TimerKind) {g : Signal} (hg : g.isExternal = true) :
    k.signal ≠ g := by
  rintro rfl
  cases k <;> cases hg

/-- Clearing one signal leaves the others alone. -/
theorem Signals.isSet_clear (s : Signals) (g h : Signal) :
    (s.clear g).isSet h = (s.isSet h && decide (h ≠ g)) := by
  by_cases heq : h = g
  · subst heq
    simp [Signals.clear]
  · simp [Signals.clear, Signals.isSet_put_of_ne s false heq, heq]

/-- Raising one signal leaves the others alone. -/
theorem Signals.isSet_raise (s : Signals) (g h : Signal) :
    (s.raise g).isSet h = (s.isSet h || decide (h = g)) := by
  by_cases heq : h = g
  · subst heq
    simp [Signals.raise]
  · simp [Signals.raise, Signals.isSet_put_of_ne s true heq, heq]

namespace Action

/-- Whether an action starts or stops the timer that raises a signal. -/
def settles (g : Signal) : Action → Bool
  | startTimer k _ | stopTimer k => k.signal = g
  | _ => false

/-- After some actions a signal is set if it was before and none of them has dealt with its timer. -/
theorem isSet_alarmsAfter (now : Instant) (a : Alarms) (acts : List Action) (g : Signal) :
    (alarmsAfter now a acts).signals.isSet g = (a.signals.isSet g && !acts.any (·.settles g)) := by
  induction acts generalizing a with
  | nil => simp [alarmsAfter]
  | cons act rest ih =>
    change (alarmsAfter now (onAlarms now a act) rest).signals.isSet g = _
    rw [ih, List.any_cons]
    have hfirst : (onAlarms now a act).signals.isSet g = (a.signals.isSet g && !act.settles g) := by
      cases act with
      | send | emit => simp [onAlarms, settles]
      | startTimer k span | stopTimer k =>
        simp [onAlarms, settles, Alarms.start, Alarms.stop, Signals.isSet_clear, eq_comm]
    rw [hfirst, Bool.not_or, Bool.and_assoc]

/-- The machine's actions leave the signals of others alone. -/
theorem settles_of_isExternal {g : Signal} (hg : g.isExternal = true) (act : Action) :
    act.settles g = false := by
  cases act with
  | send | emit => rfl
  | startTimer k | stopTimer k => cases k <;> cases g <;> first | rfl | cases hg

/-- What actions do to the timers has no regard to the signals of others. -/
theorem alarmsAfter_put (now : Instant) (a : Alarms) (acts : List Action) {g : Signal} (hg : g.isExternal = true)
    (v : Bool) : alarmsAfter now { a with signals := a.signals.put g v } acts =
      { alarmsAfter now a acts with signals := (alarmsAfter now a acts).signals.put g v } := by
  induction acts generalizing a with
  | nil => rfl
  | cons act rest ih =>
    have hfirst : onAlarms now { a with signals := a.signals.put g v } act =
        { onAlarms now a act with signals := (onAlarms now a act).signals.put g v } := by
      cases act with
      | send | emit => rfl
      | startTimer k | stopTimer k =>
        simp only [onAlarms, Alarms.start, Alarms.stop, Signals.clear,
          Signals.put_comm a.signals (k.signal_ne_of_isExternal hg).symm]
    change alarmsAfter now (onAlarms now { a with signals := a.signals.put g v } act) rest = _
    rw [hfirst, ih]
    rfl

end Action

end BoothFloor
