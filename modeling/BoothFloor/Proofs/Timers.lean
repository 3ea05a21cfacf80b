import BoothFloor.Proofs.Action

/-!
# Live timers

A timer is live while it is armed or its expiry has not been taken yet. Polling turns the one into the
other and leaves it live; what a row of actions makes of a live timer depends on the row alone.
-/

namespace BoothFloor

/-- The timers have a signal each. -/
theorem TimerKind.signal_inj {j k : TimerKind} : j.signal = k.signal ↔ j = k := by
  cases j <;> cases k <;> simp [signal]

namespace Alarms

/-- A timer is armed, or it has fired and nobody has taken its expiry yet. -/
def isLive (a : Alarms) (k : TimerKind) : Bool := a.timers.isArmed k || a.signals.isSet k.signal

/-- No timer is armed whose expiry has not been taken. -/
def Exclusive (a : Alarms) : Prop :=
  ∀ k, a.timers.isArmed k = true → a.signals.isSet k.signal = false

/-- A timer that is polled stays as it is, or it was armed and has fired. -/
theorem pollOne_cases (k : TimerKind) (now : Instant) (t : Timers) (s : Signals) :
    Timers.pollOne k now t s = (t, s) ∨
      t.isArmed k = true ∧ Timers.pollOne k now t s = (t.put k .idle, s.raise k.signal) := by
  unfold Timers.pollOne Alarm.poll
  by_cases hdue : (t.alarm k).isDue now = true
  · right
    rw [if_pos hdue]
    refine ⟨?_, rfl⟩
    unfold Alarm.isDue at hdue
    split at hdue
    · next hdeadline => simp [Timers.isArmed, Alarm.isArmed, hdeadline]
    · cases hdue
  · left
    rw [if_neg hdue]

/-- A timer that fires is as live as before. -/
theorem isLive_pollOne (j : TimerKind) (now : Instant) (t : Timers) (s : Signals) (k : TimerKind) :
    isLive ⟨(Timers.pollOne j now t s).1, (Timers.pollOne j now t s).2⟩ k = isLive ⟨t, s⟩ k := by
  rcases pollOne_cases j now t s with heq | ⟨harmed, heq⟩
  · rw [heq]
  · rw [heq]
    by_cases hj : k = j
    · subst hj
      simp [isLive, Signals.isSet_raise, harmed]
    · have hsignal : k.signal ≠ j.signal := fun h => hj (TimerKind.signal_inj.mp h)
      simp [isLive, Signals.isSet_raise, hsignal, Timers.isArmed, Timers.alarm_put_of_ne _ _ hj]

/-- A timer that fires is not armed any more. -/
theorem Exclusive.pollOne {t : Timers} {s : Signals} (h : Exclusive ⟨t, s⟩) (j : TimerKind)
    (now : Instant) : Exclusive ⟨(Timers.pollOne j now t s).1, (Timers.pollOne j now t s).2⟩ := by
  rcases pollOne_cases j now t s with heq | ⟨-, heq⟩
  · rwa [heq]
  · rw [heq]
    intro k harmed
    by_cases hj : k = j
    · subst hj
      simp [Timers.isArmed, Alarm.idle, Alarm.isArmed] at harmed
    · have hbefore : t.isArmed k = true := by
        simpa [Timers.isArmed, Timers.alarm_put_of_ne _ _ hj] using harmed
      have hsignal : k.signal ≠ j.signal := fun heq => hj (TimerKind.signal_inj.mp heq)
      simpa [Signals.isSet_raise, hsignal] using h k hbefore

/-- Polling leaves every timer as live as before. -/
theorem isLive_poll (a : Alarms) (now : Instant) (k : TimerKind) : (a.poll now).isLive k = a.isLive k :=
  (isLive_pollOne .selection now _ _ k).trans (isLive_pollOne .retry now a.timers a.signals k)

/-- Polling leaves no timer armed that has fired. -/
theorem Exclusive.poll {a : Alarms} (h : a.Exclusive) (now : Instant) : (a.poll now).Exclusive :=
  Exclusive.pollOne (Exclusive.pollOne h .retry now) .selection now

end Alarms

namespace Timers

/-- Polling a timer makes it idle if it is due, and leaves the other one as it is. -/
theorem alarm_pollOne (j : TimerKind) (now : Instant) (t : Timers) (s : Signals) (k : TimerKind) :
    (pollOne j now t s).1.alarm k = if k = j ∧ (t.alarm k).isDue now then .idle else t.alarm k := by
  unfold pollOne Alarm.poll
  by_cases hk : k = j
  · subst hk
    cases (t.alarm k).isDue now <;> simp
  · cases (t.alarm j).isDue now <;> simp [hk, alarm_put_of_ne]

/-- Polling a timer raises its signal if it is due, and leaves that of the other one as it is. -/
theorem isSet_pollOne_signal (j : TimerKind) (now : Instant) (t : Timers) (s : Signals) (k : TimerKind) :
    (pollOne j now t s).2.isSet k.signal = (decide (k = j) && (t.alarm k).isDue now || s.isSet k.signal) := by
  unfold pollOne Alarm.poll
  by_cases hk : k = j
  · subst hk
    cases (t.alarm k).isDue now <;> simp [Signals.isSet_raise]
  · cases (t.alarm j).isDue now <;> simp [hk, Signals.isSet_raise, TimerKind.signal_inj]

/-- After polling a timer is idle if it was due, and as before otherwise. -/
theorem alarm_poll (now : Instant) (t : Timers) (s : Signals) (k : TimerKind) :
    (t.poll now s).1.alarm k = if (t.alarm k).isDue now then .idle else t.alarm k := by
  change (pollOne .selection now (pollOne .retry now t s).1 (pollOne .retry now t s).2).1.alarm k = _
  rw [alarm_pollOne, alarm_pollOne]
  cases k <;> simp

/-- After polling the signal of a timer is set if the timer was due, and as before otherwise. -/
theorem isSet_poll_signal (now : Instant) (t : Timers) (s : Signals) (k : TimerKind) :
    (t.poll now s).2.isSet k.signal = ((t.alarm k).isDue now || s.isSet k.signal) := by
  change (pollOne .selection now (pollOne .retry now t s).1 (pollOne .retry now t s).2).2.isSet k.signal = _
  rw [isSet_pollOne_signal, isSet_pollOne_signal, alarm_pollOne]
  cases k <;> simp

end Timers

namespace Action

/-- Whether a timer is live after an action. -/
@[simp]
def keepsLive (k : TimerKind) (live : Bool) : Action → Bool
  | startTimer j _ => live || decide (j = k)
  | stopTimer j => live && decide (j ≠ k)
  | _ => live

/-- Whether a timer is live after some actions. -/
def liveAfter (k : TimerKind) (live : Bool) (acts : List Action) : Bool := acts.foldl (keepsLive k) live

/-- No action changes nothing. -/
@[simp]
theorem liveAfter_nil (k : TimerKind) (live : Bool) : liveAfter k live [] = live := rfl

/-- Actions take their effect one after the other. -/
@[simp]
theorem liveAfter_cons (k : TimerKind) (live : Bool) (act : Action) (acts : List Action) :
    liveAfter k live (act :: acts) = liveAfter k (keepsLive k live act) acts := rfl

/-- Actions take their effect after those before them. -/
@[simp]
theorem liveAfter_append (k : TimerKind) (live : Bool) (first second : List Action) :
    liveAfter k live (first ++ second) = liveAfter k (liveAfter k live first) second :=
  List.foldl_append

/-- A row of messages concerns no timer. -/
@[simp]
theorem liveAfter_map_send {α : Type} (k : TimerKind) (live : Bool) (dest : α → NodeId)
    (msg : α → Message) (l : List α) :
    liveAfter k live (l.map fun a => send (dest a) (msg a)) = live := by
  induction l with
  | nil => rfl
  | cons a rest ih => exact ih

/-- What actions do to the timers, told by which of them are live. -/
theorem isLive_alarmsAfter (now : Instant) (a : Alarms) (acts : List Action) (k : TimerKind) :
    (alarmsAfter now a acts).isLive k = liveAfter k (a.isLive k) acts := by
  induction acts generalizing a with
  | nil => rfl
  | cons act rest ih =>
    have hfirst : (onAlarms now a act).isLive k = keepsLive k (a.isLive k) act := by
      cases act with
      | send | emit => rfl
      | startTimer j span =>
        by_cases hj : j = k
        · subst hj
          simp [onAlarms, keepsLive, Alarms.isLive, Alarms.start, Timers.start, Timers.isArmed,
            Alarm.start, Alarm.isArmed]
        · have hsignal : k.signal ≠ j.signal := fun h => hj (TimerKind.signal_inj.mp h).symm
          simp [onAlarms, keepsLive, Alarms.isLive, Alarms.start, Timers.start, Timers.isArmed,
            Timers.alarm_put_of_ne _ _ (Ne.symm hj), Signals.isSet_clear, hsignal, hj]
      | stopTimer j =>
        by_cases hj : j = k
        · subst hj
          simp [onAlarms, keepsLive, Alarms.isLive, Alarms.stop, Timers.stop, Timers.isArmed,
            Alarm.idle, Alarm.isArmed, Signals.isSet_clear]
        · have hsignal : k.signal ≠ j.signal := fun h => hj (TimerKind.signal_inj.mp h).symm
          simp [onAlarms, keepsLive, Alarms.isLive, Alarms.stop, Timers.stop, Timers.isArmed,
            Timers.alarm_put_of_ne _ _ (Ne.symm hj), Signals.isSet_clear, hsignal, hj]
    change (alarmsAfter now (onAlarms now a act) rest).isLive k = _
    rw [ih, hfirst, liveAfter_cons]

/-- A timer that is started or stopped has no expiry left to take. -/
theorem exclusive_alarmsAfter (now : Instant) {a : Alarms} (h : a.Exclusive) (acts : List Action) :
    (alarmsAfter now a acts).Exclusive := by
  induction acts generalizing a with
  | nil => exact h
  | cons act rest ih =>
    refine ih fun k harmed => ?_
    cases act with
    | send | emit => exact h k harmed
    | startTimer j span | stopTimer j =>
      change (a.signals.clear j.signal).isSet k.signal = false
      rw [Signals.isSet_clear]
      by_cases hj : k = j
      · simp [hj]
      · have hbefore : a.timers.isArmed k = true := by
          simpa [onAlarms, Alarms.start, Alarms.stop, Timers.start, Timers.stop, Timers.isArmed,
            Timers.alarm_put_of_ne _ _ hj] using harmed
        simp [h k hbefore]

end Action

end BoothFloor
