import BoothFloor.Proofs.Timers
import Mathlib.Data.List.Infix

/-!
# What becomes of a timer

The timers of a node are called in any order: started and stopped, polled at what the clock shows, and asked for their
signals. What a timer is like is settled by its history alone. From the call that started it last it waits for the first
poll that sees its time; that poll fires it, and from then on the expiry is pending until it is taken. Nothing else
makes a timer fire, so it fires once for a start, and starting or stopping it leaves nothing pending.
-/

namespace BoothFloor

/-- The timers of a node and what its clock showed last. -/
structure Watch where
  now : Instant := .zero
  alarms : Alarms := {}

namespace Watch

/-- What can be asked of the timers of a node. -/
inductive Call where
  | start (k : TimerKind) (d : Duration)
  | stop (k : TimerKind)
  /-- Read the clock, which may have been set back. -/
  | advance (now : Instant)
  | poll
  /-- Ask whether a signal is pending, which clears it. -/
  | take (g : Signal)
  deriving DecidableEq

namespace Call

/-- Whether a call starts or stops a timer. -/
def sets (k : TimerKind) : Call → Bool
  | start j _ | stop j => decide (j = k)
  | _ => false

/-- What a call reads off the clock. -/
def reading? : Call → Option Instant
  | advance now => some now
  | _ => none

/-- What an action of a state machine asks of the timers. -/
def ofAction? : Action → Option Call
  | .startTimer k span => some (start k (.ofMillis span.ms.toNat))
  | .stopTimer k => some (stop k)
  | _ => none

end Call

/-- What a call leaves of the timers. -/
def call (w : Watch) : Call → Watch
  | .start k d => { w with alarms := w.alarms.start k w.now d.toSpan }
  | .stop k => { w with alarms := w.alarms.stop k }
  | .advance now => { w with now := now }
  | .poll => { w with alarms := w.alarms.poll w.now }
  | .take g => { w with alarms := { w.alarms with signals := w.alarms.signals.clear g } }

/-- What some calls leave of the timers. -/
def calls (w : Watch) (row : List Call) : Watch := row.foldl call w

/-- The timers of a new node after some calls. -/
def after (row : List Call) : Watch := calls {} row

def alarm (w : Watch) (k : TimerKind) : Alarm := w.alarms.timers.alarm k

def isArmed (w : Watch) (k : TimerKind) : Bool := w.alarms.timers.isArmed k

/-- Whether a timer has fired and nobody has taken its expiry yet. -/
def isPending (w : Watch) (k : TimerKind) : Bool := w.alarms.signals.isSet k.signal

/-- What the clock showed last in the course of some calls. -/
def clock (row : List Call) : Instant := (row.reverse.findSome? Call.reading?).getD .zero

/-- Whether a timer that was started at one instant has its time at another one. -/
def Reached (since : Instant) (d : Duration) (now : Instant) : Prop := since.after d.toSpan ≤ now

/-- Some calls that set a timer: the last one starts it for a time, after some calls and before others. -/
structure Started (k : TimerKind) (row past : List Call) (d : Duration) (behind : List Call) : Prop where
  row_eq : row = past ++ .start k d :: behind
  undisturbed : ∀ c ∈ behind, c.sets k = false

/-- Whether no poll has seen the time of a timer since it was started. -/
def Unseen (k : TimerKind) (past : List Call) (d : Duration) (behind : List Call) : Prop :=
  ∀ mid, mid ++ [.poll] <+: behind → ¬ Reached (clock past) d (clock (past ++ .start k d :: mid))

/-- Whether a timer fires if it is polled after some calls. -/
def Fires (k : TimerKind) (row : List Call) : Prop :=
  (after row).isArmed k = true ∧ (after (row ++ [.poll])).isArmed k = false

instance (k : TimerKind) (row : List Call) : Decidable (Fires k row) := inferInstanceAs (Decidable (_ ∧ _))

variable {k : TimerKind} {w : Watch} {c : Call} {row past behind mid : List Call} {d : Duration} {t : Instant}

/-- Calls take their effect after those before them. -/
theorem calls_append (w : Watch) (first second : List Call) :
    w.calls (first ++ second) = (w.calls first).calls second :=
  List.foldl_append

/-- Some calls and one more. -/
theorem calls_concat (w : Watch) (row : List Call) (c : Call) : w.calls (row ++ [c]) = (w.calls row).call c :=
  calls_append w row [c]

/-- A history goes on from what it has left so far. -/
theorem after_append (first second : List Call) : after (first ++ second) = (after first).calls second :=
  calls_append {} first second

/-- A history and one call more. -/
theorem after_concat (row : List Call) (c : Call) : after (row ++ [c]) = (after row).call c :=
  calls_concat {} row c

/-- What the actions of a state machine do to the timers is done by such calls. -/
theorem calls_ofAction (now : Instant) (a : Alarms) (acts : List Action) :
    calls ⟨now, a⟩ (acts.filterMap Call.ofAction?) = ⟨now, Action.alarmsAfter now a acts⟩ := by
  induction acts generalizing a with
  | nil => rfl
  | cons act acts ih =>
    cases act with
    | startTimer k span =>
      have hspan : (Duration.ofMillis span.ms.toNat).toSpan = span := by
        simp [Duration.toSpan, Duration.wholeMillis, Duration.ofMillis]
      have hcall : (Watch.mk now a).call (.start k (.ofMillis span.ms.toNat)) = ⟨now, a.start k now span⟩ := by
        rw [call, hspan]
      exact (congrArg (calls · _) hcall).trans (ih _)
    | stopTimer => exact ih _
    | send | emit => exact ih a

/-- The clock shows what was read off it last. -/
theorem now_after (row : List Call) : (after row).now = clock row := by
  induction row using List.reverseRecOn with
  | nil => rfl
  | append_singleton row c ih =>
    have hcall : ((after row).call c).now = c.reading?.getD (after row).now := by cases c <;> rfl
    rw [after_concat, hcall, ih, clock, clock, List.reverse_append, List.reverse_singleton, List.singleton_append,
      List.findSome?_cons]
    cases c.reading? <;> rfl

/-- A call that does not set a timer leaves it alone, unless it is a poll at which the timer is due. -/
theorem alarm_call (hc : c.sets k = false) :
    (w.call c).alarm k = if c = .poll ∧ (w.alarm k).isDue w.now then .idle else w.alarm k := by
  cases c with
  | start j | stop j =>
    have hj : k ≠ j := fun heq => of_decide_eq_false hc heq.symm
    rw [if_neg (by simp)]
    exact Timers.alarm_put_of_ne _ _ hj
  | advance | take => rw [if_neg (by simp)]; rfl
  | poll =>
    change (w.alarms.timers.poll w.now w.alarms.signals).1.alarm k = _
    rw [Timers.alarm_poll]
    simp [alarm]

/-- A call that does not set a timer leaves its signal alone, unless it takes it or is a poll at which the timer is
due. -/
theorem isPending_call (hc : c.sets k = false) :
    (w.call c).isPending k =
      (decide (c ≠ .take k.signal) && (decide (c = .poll) && (w.alarm k).isDue w.now || w.isPending k)) := by
  cases c with
  | start j | stop j =>
    have hj : k.signal ≠ j.signal := fun heq => of_decide_eq_false hc (TimerKind.signal_inj.mp heq).symm
    change (w.alarms.signals.clear j.signal).isSet k.signal = _
    rw [Signals.isSet_clear]
    simp [hj, isPending]
  | advance => simp [call, isPending]
  | take g =>
    change (w.alarms.signals.clear g).isSet k.signal = _
    rw [Signals.isSet_clear]
    by_cases hg : g = k.signal
    · simp [hg]
    · simp [hg, Ne.symm hg, isPending]
  | poll =>
    change (w.alarms.timers.poll w.now w.alarms.signals).2.isSet k.signal = _
    rw [Timers.isSet_poll_signal]
    simp [alarm, isPending]

/-- A timer that is idle stays so until it is set, and an expiry stays pending until it is taken. -/
theorem idle_calls (hidle : w.alarm k = .idle) (hrow : ∀ c ∈ row, c.sets k = false) :
    (w.calls row).alarm k = .idle ∧
      (w.calls row).isPending k = (w.isPending k && decide (.take k.signal ∉ row)) := by
  induction row using List.reverseRecOn with
  | nil => simp [calls, hidle]
  | append_singleton row c ih =>
    obtain ⟨hstill, hpending⟩ := ih fun c' hc' => hrow c' (List.mem_append_left _ hc')
    have hc : c.sets k = false := hrow c (by simp)
    rw [calls_concat, alarm_call hc, isPending_call hc, hstill, hpending]
    refine ⟨ite_self _, ?_⟩
    by_cases htake : c = .take k.signal
    · simp [htake]
    · simp [htake, Ne.symm htake, Alarm.isDue, Alarm.idle]

/-- A timer waits, with nothing pending, until it is set or a poll sees its time. -/
theorem waiting_calls (halarm : w.alarm k = ⟨some t⟩) (hpending : w.isPending k = false)
    (hrow : ∀ c ∈ row, c.sets k = false) (hunseen : ∀ mid, mid ++ [.poll] <+: row → ¬ t ≤ (w.calls mid).now) :
    (w.calls row).alarm k = ⟨some t⟩ ∧ (w.calls row).isPending k = false := by
  induction row using List.reverseRecOn with
  | nil => exact ⟨halarm, hpending⟩
  | append_singleton row c ih =>
    obtain ⟨hstill, hnone⟩ := ih (fun c' hc' => hrow c' (List.mem_append_left _ hc'))
      fun mid hmid => hunseen mid (hmid.trans (List.prefix_append _ _))
    have hc : c.sets k = false := hrow c (by simp)
    -- only a poll can end the wait, and the calls up to this one are a prefix that `hunseen` speaks of
    have hdue : ¬ (c = .poll ∧ (Alarm.mk (some t)).isDue (w.calls row).now = true) := by
      rintro ⟨rfl, hdue⟩
      exact hunseen row List.prefix_rfl (of_decide_eq_true hdue)
    rw [calls_concat, alarm_call hc, isPending_call hc, hstill, hnone, if_neg hdue]
    refine ⟨rfl, ?_⟩
    by_cases hpoll : c = .poll
    · simpa [hpoll] using hdue
    · simp [hpoll]

/-- A poll that sees the time of a timer fires it. -/
theorem poll_fires (halarm : w.alarm k = ⟨some t⟩) (hdue : t ≤ w.now) :
    (w.call .poll).alarm k = .idle ∧ (w.call .poll).isPending k = true := by
  have hc : Call.poll.sets k = false := rfl
  have hdue : (Alarm.mk (some t)).isDue w.now = true := decide_eq_true hdue
  rw [alarm_call hc, isPending_call hc, halarm, hdue]
  simp

/-- A timer that is set has nothing pending. -/
theorem isPending_of_sets (hc : c.sets k = true) : (w.call c).isPending k = false := by
  cases c with
  | start j | stop j =>
    obtain rfl := of_decide_eq_true hc
    change (w.alarms.signals.clear j.signal).isSet j.signal = false
    rw [Signals.isSet_clear]
    simp
  | _ => cases hc

/-- If some poll has seen the time of a timer since it was started, one was the first. -/
theorem exists_first_seen (h : ¬ Unseen k past d behind) :
    ∃ mid rest, behind = mid ++ .poll :: rest ∧ Unseen k past d mid ∧
      Reached (clock past) d (clock (past ++ .start k d :: mid)) := by
  -- on the last call: a poll that is the first to see the time stands at the end when it is met
  induction behind using List.reverseRecOn with
  | nil => exact absurd (fun mid hmid => by simp at hmid) h
  | append_singleton behind c ih =>
    by_cases hbehind : Unseen k past d behind
    · unfold Unseen at h
      push Not at h
      obtain ⟨mid, hmid, hreached⟩ := h
      rcases List.prefix_concat_iff.mp hmid with heq | hearlier
      · obtain ⟨rfl, rfl⟩ := List.append_singleton_inj.mp heq
        exact ⟨mid, [], rfl, hbehind, hreached⟩
      · exact absurd hreached (hbehind mid hearlier)
    · obtain ⟨mid, rest, rfl, hmid, hreached⟩ := ih hbehind
      exact ⟨mid, rest ++ [c], by simp, hmid, hreached⟩

/-- Some calls do not set a timer, or one of them is the last that does. -/
theorem exists_last_set (k : TimerKind) (row : List Call) :
    (∀ c ∈ row, c.sets k = false) ∨
      ∃ past c behind, row = past ++ c :: behind ∧ c.sets k = true ∧ ∀ c' ∈ behind, c'.sets k = false := by
  cases hlast : row.reverse.find? (Call.sets k) with
  | none =>
    exact .inl fun c hc => Bool.eq_false_iff.mpr (List.find?_eq_none.mp hlast c (List.mem_reverse.mpr hc))
  | some c =>
    obtain ⟨hc, behind, past, hrow, hbehind⟩ := List.find?_eq_some_iff_append.mp hlast
    refine .inr ⟨past.reverse, c, behind.reverse, ?_, hc, fun c' hc' => ?_⟩
    · simpa using congrArg List.reverse hrow
    · simpa using hbehind c' (List.mem_reverse.mp hc')

/-- From its start on a timer waits until a poll sees its time. -/
theorem waiting_of_unseen (hrow : ∀ c ∈ behind, c.sets k = false) (hunseen : Unseen k past d behind) :
    (after (past ++ .start k d :: behind)).alarm k = ⟨some ((clock past).after d.toSpan)⟩ ∧
      (after (past ++ .start k d :: behind)).isPending k = false := by
  have hafter (row : List Call) : after (past ++ .start k d :: row) = ((after past).call (.start k d)).calls row :=
    after_append past _
  have halarm : ((after past).call (.start k d)).alarm k = ⟨some ((clock past).after d.toSpan)⟩ := by
    rw [← now_after]
    exact Timers.alarm_put_self _ _ _
  have hpending : ((after past).call (.start k d)).isPending k = false := isPending_of_sets (by simp [Call.sets])
  rw [hafter]
  refine waiting_calls halarm hpending hrow fun mid hmid hdue => hunseen mid hmid ?_
  rwa [Reached, ← now_after (past ++ .start k d :: mid), hafter]

/-- From the first poll that sees its time on a timer is idle, and its expiry is pending until it is taken. -/
theorem fired_of_seen {rest : List Call} (hrow : ∀ c ∈ mid ++ .poll :: rest, c.sets k = false)
    (hunseen : Unseen k past d mid) (hreached : Reached (clock past) d (clock (past ++ .start k d :: mid))) :
    (after (past ++ .start k d :: (mid ++ .poll :: rest))).alarm k = .idle ∧
      (after (past ++ .start k d :: (mid ++ .poll :: rest))).isPending k = decide (.take k.signal ∉ rest) := by
  have hwaiting := (waiting_of_unseen (fun c hc => hrow c (List.mem_append_left _ hc)) hunseen).1
  rw [Reached, ← now_after (past ++ .start k d :: mid)] at hreached
  obtain ⟨hidle, hpending⟩ := poll_fires hwaiting hreached
  have hafter : after (past ++ .start k d :: (mid ++ .poll :: rest)) =
      ((after (past ++ .start k d :: mid)).call .poll).calls rest := by
    rw [← List.cons_append, ← List.append_assoc]
    exact after_append _ _
  rw [hafter]
  have hrest : ∀ c ∈ rest, c.sets k = false := fun c hc =>
    hrow c (List.mem_append_right _ (List.mem_cons_of_mem _ hc))
  obtain ⟨hstill, hlater⟩ := idle_calls hidle hrest
  rw [hpending, Bool.true_and] at hlater
  exact ⟨hstill, hlater⟩

/-- What a history can make of a timer: it is idle with nothing pending, or it waits for its time, or a poll has seen
its time. -/
theorem history_cases (k : TimerKind) (row : List Call) :
    ((after row).alarm k = .idle ∧ (after row).isPending k = false) ∨
      (∃ past d behind, Started k row past d behind ∧ Unseen k past d behind) ∨
      ∃ past d mid rest, Started k row past d (mid ++ .poll :: rest) ∧ Unseen k past d mid ∧
        Reached (clock past) d (clock (past ++ .start k d :: mid)) := by
  rcases exists_last_set k row with hnone | ⟨past, c, behind, rfl, hc, hbehind⟩
  · have hfresh : ({} : Watch).alarm k = .idle ∧ ({} : Watch).isPending k = false := by cases k <;> exact ⟨rfl, rfl⟩
    obtain ⟨hidle, hpending⟩ := idle_calls hfresh.1 hnone
    rw [hfresh.2, Bool.false_and] at hpending
    exact .inl ⟨hidle, hpending⟩
  cases c with
  | start j d =>
    obtain rfl := of_decide_eq_true hc
    by_cases hunseen : Unseen j past d behind
    · exact .inr (.inl ⟨past, d, behind, ⟨rfl, hbehind⟩, hunseen⟩)
    · obtain ⟨mid, rest, rfl, hmid, hreached⟩ := exists_first_seen hunseen
      exact .inr (.inr ⟨past, d, mid, rest, ⟨rfl, hbehind⟩, hmid, hreached⟩)
  | stop j =>
    obtain rfl := of_decide_eq_true hc
    have hafter : after (past ++ .stop j :: behind) = ((after past).call (.stop j)).calls behind :=
      after_append past _
    have hstopped : ((after past).call (.stop j)).alarm j = .idle := Timers.alarm_put_self _ _ _
    obtain ⟨hidle, hpending⟩ := idle_calls hstopped hbehind
    rw [isPending_of_sets hc, Bool.false_and] at hpending
    exact .inl (hafter ▸ ⟨hidle, hpending⟩)
  | advance | poll | take => cases hc

/-- A timer has its time when the clock shows the sum of the instant at which it was started and its time in whole
milliseconds, which are counted modulo the word, or the greatest instant if that lies beyond it. -/
theorem reached_iff {since now : Instant} :
    Reached since d now ↔ min (since.ms.toNat + d.wholeMillis % UInt64.size) (UInt64.size - 1) ≤ now.ms.toNat := by
  have hspan : d.toSpan.ms.toNat = d.wholeMillis % UInt64.size := UInt64.toNat_ofNat'
  rw [Reached, ← hspan, ← Instant.toNat_after]
  exact UInt64.le_iff_toNat_le

/-- A timer is idle exactly if it is not armed. -/
theorem isArmed_eq_false_iff : w.isArmed k = false ↔ w.alarm k = .idle := by
  change (w.alarm k).deadline.isSome = false ↔ _
  cases w.alarm k with
  | mk deadline => cases deadline <;> simp [Alarm.idle]

/-- A timer is armed exactly if it was set last by a start and no poll has seen its time since. -/
theorem isArmed_after_iff :
    (after row).isArmed k = true ↔ ∃ past d behind, Started k row past d behind ∧ Unseen k past d behind := by
  constructor
  · intro harmed
    have hbusy : (after row).alarm k ≠ .idle := fun hidle => by
      rw [isArmed_eq_false_iff.mpr hidle] at harmed
      cases harmed
    rcases history_cases k row with ⟨hidle, -⟩ | hwaiting | ⟨past, d, mid, rest, ⟨rfl, hrow⟩, hunseen, hreached⟩
    · exact absurd hidle hbusy
    · exact hwaiting
    · exact absurd (fired_of_seen hrow hunseen hreached).1 hbusy
  · rintro ⟨past, d, behind, ⟨rfl, hrow⟩, hunseen⟩
    rw [isArmed, Timers.isArmed, ← alarm, (waiting_of_unseen hrow hunseen).1]
    rfl

/-- An expiry is pending exactly if the timer was set last by a start, a poll has seen its time since, and the expiry
was not taken since the first poll that did. -/
theorem isPending_after_iff :
    (after row).isPending k = true ↔ ∃ past d mid rest, Started k row past d (mid ++ .poll :: rest) ∧
      Unseen k past d mid ∧ Reached (clock past) d (clock (past ++ .start k d :: mid)) ∧ .take k.signal ∉ rest := by
  constructor
  · intro hpending
    rcases history_cases k row with ⟨-, hnone⟩ | ⟨past, d, behind, ⟨rfl, hrow⟩, hunseen⟩ |
      ⟨past, d, mid, rest, ⟨rfl, hrow⟩, hunseen, hreached⟩
    · rw [hnone] at hpending
      cases hpending
    · rw [(waiting_of_unseen hrow hunseen).2] at hpending
      cases hpending
    · rw [(fired_of_seen hrow hunseen hreached).2] at hpending
      exact ⟨past, d, mid, rest, ⟨rfl, hrow⟩, hunseen, hreached, of_decide_eq_true hpending⟩
  · rintro ⟨past, d, mid, rest, ⟨rfl, hrow⟩, hunseen, hreached, htake⟩
    rw [(fired_of_seen hrow hunseen hreached).2]
    exact decide_eq_true htake

/-- A timer fires if it is polled when it is due. -/
theorem fires_iff : Fires k row ↔ ((after row).alarm k).isDue (after row).now = true := by
  have hpoll : (after (row ++ [.poll])).alarm k =
      if ((after row).alarm k).isDue (after row).now then .idle else (after row).alarm k := by
    rw [after_concat, alarm_call rfl]
    exact if_congr (and_iff_right rfl) rfl rfl
  rw [Fires, isArmed_eq_false_iff, hpoll]
  constructor
  · rintro ⟨harmed, hidle⟩
    by_contra hdue
    rw [if_neg hdue] at hidle
    rw [isArmed_eq_false_iff.mpr hidle] at harmed
    cases harmed
  · intro hdue
    refine ⟨?_, if_pos hdue⟩
    by_contra harmed
    rw [isArmed_eq_false_iff.mp (Bool.eq_false_iff.mpr harmed)] at hdue
    cases hdue

/-- An expiry is pending after a poll exactly if the timer fires at it or the expiry was pending before. -/
theorem isPending_poll_iff :
    (after (row ++ [.poll])).isPending k = true ↔ Fires k row ∨ (after row).isPending k = true := by
  rw [fires_iff, after_concat, isPending_call rfl]
  simp

/-- A timer that has fired is not armed again before it is set. -/
theorem not_fires_again {first second : List Call} (hrow : ∀ c ∈ second, c.sets k = false) (hfires : Fires k first) :
    ¬ Fires k (first ++ .poll :: second) := by
  rintro ⟨harmed, -⟩
  have hafter : after (first ++ .poll :: second) = (after (first ++ [.poll])).calls second := by
    rw [List.append_cons]
    exact after_append _ _
  have hstill := (idle_calls (isArmed_eq_false_iff.mp hfires.2) hrow).1
  rw [hafter, isArmed_eq_false_iff.mpr hstill] at harmed
  cases harmed

/-- The calls on a timer settle what it is like: it is armed exactly if it was set last by a start and no poll has seen
its time since, and its expiry is pending exactly if a poll has and the expiry was not taken since the first one that
did. So a timer fires at most once for a start, nothing is pending right after it is set, and it has its time at the sum
of the instant of its start and its whole milliseconds, as long as a word holds these. -/
theorem timers_settled_by_history (row : List Call) (k : TimerKind) :
    ((after row).isArmed k = true ↔ ∃ past d behind, Started k row past d behind ∧ Unseen k past d behind) ∧
      ((after row).isPending k = true ↔ ∃ past d mid rest, Started k row past d (mid ++ .poll :: rest) ∧
        Unseen k past d mid ∧ Reached (clock past) d (clock (past ++ .start k d :: mid)) ∧ .take k.signal ∉ rest) ∧
      ((after (row ++ [.poll])).isPending k = true ↔ Fires k row ∨ (after row).isPending k = true) ∧
      (∀ behind, (∀ c ∈ behind, c.sets k = false) → Fires k row → ¬ Fires k (row ++ .poll :: behind)) ∧
      (∀ c, c.sets k = true → (after (row ++ [c])).isPending k = false) ∧
      ∀ since now d, (Reached since d now ↔
          min (since.ms.toNat + d.wholeMillis % UInt64.size) (UInt64.size - 1) ≤ now.ms.toNat) ∧
        (d.wholeMillis < UInt64.size →
          (Reached since d now ↔ min (since.ms.toNat + d.wholeMillis) (UInt64.size - 1) ≤ now.ms.toNat)) := by
  refine ⟨isArmed_after_iff, isPending_after_iff, isPending_poll_iff, fun _ => not_fires_again, fun c hc => ?_,
    fun since now d => ⟨reached_iff, fun hfits => ?_⟩⟩
  · rw [after_concat]
    exact isPending_of_sets hc
  · rw [reached_iff, Nat.mod_eq_of_lt hfits]

/-- A timer is started for ten milliseconds and polled too early, before the clock shows its time. -/
def tenMillis : List Call :=
  [.advance ⟨100⟩, .start .retry (.ofMillis 10), .advance ⟨109⟩, .poll, .advance ⟨110⟩]

/-- The next poll fires it, none after it does, and a second start leaves nothing pending. -/
theorem timers_settled_by_history_tenMillis :
    (after tenMillis).isArmed .retry = true ∧ (after (tenMillis ++ [.poll])).isPending .retry = true ∧
      ¬ Fires .retry (tenMillis ++ .poll :: [.take .retryTimeout, .advance ⟨90⟩, .advance ⟨111⟩]) ∧
      (after (tenMillis ++ [.poll] ++ [.start .retry (.ofMillis 5)])).isPending .retry = false ∧
      Reached ⟨100⟩ (.ofMillis 10) ⟨110⟩ := by
  have hfires : Fires .retry tenMillis := by decide
  obtain ⟨-, -, hpoll, hagain, -, hreached⟩ := timers_settled_by_history tenMillis .retry
  obtain ⟨-, -, -, -, hset, -⟩ := timers_settled_by_history (tenMillis ++ [.poll]) .retry
  exact ⟨hfires.1, hpoll.mpr (.inl hfires), hagain _ (by decide) hfires, hset _ (by decide),
    ((hreached _ _ _).2 (by decide)).mpr (by decide)⟩

/-- A time of more milliseconds than a word holds: all but 384 of them are a power of two. -/
def endlessTime : Duration := .ofParts 18446744073709552 0

/-- A timer that is started for more milliseconds than a word holds fires before its time: they are cut to the word
before the sum stops at the greatest instant. -/
theorem endlessTime_fires_early :
    (after [.start .retry endlessTime, .advance ⟨384⟩, .poll]).isPending .retry = true ∧
      384 < min (Instant.zero.ms.toNat + endlessTime.wholeMillis) (UInt64.size - 1) := by
  decide

end Watch

end BoothFloor
