import BoothFloor.Proofs.Host.Ledger
import BoothFloor.Proofs.Host.Session

/-!
# Nothing is overdue after a sweep

A sweep leaves a booth without a session that has lasted for its limit and without an offer that has lasted
longer than its own; the offer that it makes itself begins at that instant. A host tells nobody that its time
is up but those whose sessions a sweep ends, each of them once, and apart from that nobody is moved out.
-/

namespace BoothFloor

/-- The users to whom some messages say that their time is up. -/
def alerted (sent : List (NodeId × Message)) : List NodeId := (sent.filter (·.2 = .timeoutAlert)).map (·.1)

/-- The alerts of a first and a second part follow one another. -/
theorem alerted_append (first second : List (NodeId × Message)) :
    alerted (first ++ second) = alerted first ++ alerted second := by
  rw [alerted, List.filter_append, List.map_append]
  rfl

/-- A user is alerted by a message that says so. -/
theorem mem_alerted {sent : List (NodeId × Message)} {u : NodeId} : u ∈ alerted sent ↔ (u, .timeoutAlert) ∈ sent := by
  simp [alerted]

/-- Messages that say something else to everyone alert nobody. -/
theorem alerted_eq_nil {sent : List (NodeId × Message)} (h : ∀ u, (u, .timeoutAlert) ∉ sent) : alerted sent = [] :=
  List.eq_nil_iff_forall_not_mem.mpr fun u hu => h u (mem_alerted.mp hu)

namespace Booth

/-- A user is inside a booth and has been so for a limit. -/
def Overdue (b : Booth) (now : Instant) (limit : Span) (u : NodeId) : Prop :=
  ∃ s ∈ b.active, s.user = u ∧ limit ≤ now.since s.start

/-- At an instant nobody inside a booth is over its time, and neither is the holder of its offer. -/
structure Timely (b : Booth) (r : Rules) (now : Instant) : Prop where
  sessions : ∀ s ∈ b.active, now.since s.start < r.sessionDuration
  offer : ∀ o, b.offer = some o → now.since o.since ≤ r.queueReadyTimeout

variable {b : Booth} {u v : NodeId} {now : Instant} {limit : Span}

/-- A sweep ends the sessions of those who are over their time. -/
theorem mem_expired_iff : u ∈ b.expired now limit ↔ b.Overdue now limit u := by
  simp only [expired, Overdue, List.mem_map, List.mem_filter, decide_eq_true_eq]
  constructor
  · rintro ⟨s, ⟨hs, hlimit⟩, huser⟩
    exact ⟨s, hs, huser, hlimit⟩
  · rintro ⟨s, hs, huser, hlimit⟩
    exact ⟨s, ⟨hs, hlimit⟩, huser⟩

/-- What is left of an offer after a sweep is not overdue. -/
theorem offer_sweepOffer {o : Offer} (ho : (b.sweepOffer now limit).2.offer = some o) : now.since o.since ≤ limit := by
  unfold sweepOffer at ho
  split at ho
  · next old hold =>
    split at ho
    · cases ho
    · next hwithin =>
      obtain rfl := Option.some.inj (hold.symm.trans ho)
      exact Span.not_lt.mp hwithin
  · next hnone =>
    rw [hnone] at ho
    cases ho

/-- An offer that is handed on was made before or is made right now. -/
theorem offer_offerNext {o : Offer} (ho : (b.offerNext now).2.offer = some o) : b.offer = some o ∨ o.since = now := by
  rcases b.offerNext_cases now with ⟨head, rest, -, -, -, heq⟩ | ⟨-, heq⟩ <;> rw [heq] at ho
  · exact .inr (congrArg Offer.since (Option.some.inj ho)).symm
  · exact .inl ho

/-- An answer to a request alerts nobody. -/
theorem not_alert_answerLetters (judged : Verdict × Booth) : (v, .timeoutAlert) ∉ answerLetters u now judged := by
  obtain ⟨verdict, after⟩ := judged
  intro h
  rcases verdict with (_ | _) | _ | _ | _ | _
  case admitted.true =>
    rcases List.mem_cons.mp h with hfirst | hrest
    · cases hfirst
    · rcases List.mem_append.mp hrest with hnews | hoffer
      · obtain ⟨-, _, _, heq⟩ := mem_queueUpdates hnews
        cases heq
      · cases (mem_offerLetters hoffer).2
  all_goals simp [answerLetters] at h

end Booth

namespace Host

variable {h : Host} {m : Moment} {i : Input} {u : NodeId}

/-- The answer to a message alerts nobody. -/
theorem not_alert_onMessage (now : Instant) (source : NodeId) (message : Message) :
    (u, .timeoutAlert) ∉ Action.sent (h.onMessage now source message).2 := by
  rw [onMessage_sent]
  split
  · exact List.not_mem_nil
  · cases message with
    | registerRequest =>
      simp only [onRegister_sent]
      exact Booth.not_alert_answerLetters _
    | exitRequest =>
      simp only [onExit_sent]
      split
      · rw [List.mem_cons]
        rintro (hfirst | hoffer)
        · cases hfirst
        · cases (Booth.mem_offerLetters hoffer).2
      · simp
    | queueLeave =>
      simp only [onQueueLeave_sent, List.mem_append]
      rintro (hnews | hoffer)
      · split at hnews
        · obtain ⟨-, _, _, heq⟩ := Booth.mem_queueUpdates hnews
          cases heq
        · cases hnews
      · split at hoffer
        · cases (Booth.mem_offerLetters hoffer).2
        · cases hoffer
    | chat sender text =>
      simp only [onChat_sent]
      split <;> simp
    | _ => simp

/-- A sweep alerts those whose sessions it ends. -/
theorem sweep_alerted (now : Instant) (h : Host) :
    alerted (Action.sent (sweep now h).2) = h.booth.expired now h.rules.sessionDuration := by
  have hends : alerted ((h.booth.expired now h.rules.sessionDuration).map (·, .timeoutAlert)) =
      h.booth.expired now h.rules.sessionDuration := by
    simp [alerted, List.filter_map, Function.comp_def]
  have hoffers : alerted ((h.booth.sweepSessions now h.rules.sessionDuration).2.withdrawalLetters now
        h.rules.queueReadyTimeout ++
      ((h.booth.sweepSessions now h.rules.sessionDuration).2.sweepOffer now
        h.rules.queueReadyTimeout).2.offerLetters now) = [] := by
    refine alerted_eq_nil fun u hu => ?_
    rcases List.mem_append.mp hu with hnews | hoffer
    · obtain ⟨_, _, heq⟩ := Booth.mem_withdrawalLetters hnews
      cases heq
    · cases (Booth.mem_offerLetters hoffer).2
  rw [sweep_sent, List.append_assoc, alerted_append, hends, hoffers, List.append_nil]

/-- A reaction alerts those whose sessions a sweep ends, and it does so at a tick that is due for one. -/
theorem react_alerted (h : Host) (m : Moment) (i : Input) :
    alerted (Action.sent (h.react m i).2) =
      if i = .tick ∧ m.tick % h.rules.sweepInterval.toNat = 0 then h.booth.expired m.now h.rules.sessionDuration
      else [] := by
  cases i with
  | start | timer => rfl
  | intent i =>
    refine (alerted_eq_nil fun u hu => ?_).trans (if_neg (by simp)).symm
    cases i <;> simp [react, onIntent, Action.sent] at hu
  | message source message =>
    exact (alerted_eq_nil fun u hu => not_alert_onMessage m.now source message hu).trans (if_neg (by simp)).symm
  | tick =>
    change alerted (Action.sent (h.onTick m).2) = _
    have hannounces : alerted (Action.sent (broadcast m.tick (h.onTick m).1).2) = [] := by
      rw [broadcast_sent]
      split <;> rfl
    rw [onTick_sent, alerted_append, hannounces, List.append_nil]
    simp only [true_and]
    split
    · exact sweep_alerted m.now h
    · rfl

/-- Inputs other than a tick alert nobody. -/
theorem run_alerted {inputs : List Input} (hquiet : ∀ i ∈ inputs, i ≠ .tick) (h : Host) (m : Moment) :
    alerted (Action.sent (h.run (inputs.map (m, ·))).2) = [] := by
  induction inputs generalizing h with
  | nil => rfl
  | cons i rest ih =>
    obtain ⟨hfirst, hrest⟩ := List.forall_mem_cons.mp hquiet
    rw [List.map_cons, run_cons, Action.sent_append, alerted_append, ih hrest, react_alerted,
      if_neg fun hdue => hfirst hdue.1]
    rfl

/-- A sweep leaves nothing overdue. -/
theorem sweep_timely (horderly : h.booth.Orderly) (now : Instant) :
    (sweep now h).1.booth.Timely h.rules now where
  sessions := by
    intro s hs
    have hkept : s ∈ (h.booth.sweepSessions now h.rules.sessionDuration).2.active := by
      rw [sweep_fst] at hs
      change s ∈ (Booth.offerNext _ now).2.active at hs
      rw [Booth.offerNext_active] at hs
      rcases Booth.sweepOffer_cases (h.booth.sweepSessions now h.rules.sessionDuration).2 now
        h.rules.queueReadyTimeout with ⟨o, -, -, heq⟩ | heq
      · rwa [heq] at hs
      · rwa [heq] at hs
    rw [horderly.sweepSessions_eq] at hkept
    exact Span.not_le.mp (of_decide_eq_true (List.mem_filter.mp hkept).2)
  offer := by
    intro o ho
    rw [sweep_fst] at ho
    rcases Booth.offer_offerNext ho with hold | hnew
    · exact Booth.offer_sweepOffer hold
    · rw [hnew]
      exact Instant.since_self_le now _

/-- A tick that is due for a sweep leaves nothing overdue. -/
theorem react_tick_timely (horderly : h.booth.Orderly) (hdue : m.tick % h.rules.sweepInterval.toNat = 0) :
    (h.react m .tick).1.booth.Timely h.rules m.now := by
  change (h.onTick m).1.booth.Timely h.rules m.now
  rw [onTick_fst, if_pos hdue]
  exact sweep_timely horderly m.now

/-- Whomever a reaction alerts was inside over its time, and is inside no more. -/
theorem not_active_of_alerted (horderly : h.booth.Orderly)
    (halert : u ∈ alerted (Action.sent (h.react m i).2)) : u ∉ (h.react m i).1.booth.activeUsers := by
  rw [react_alerted] at halert
  split at halert
  · next hdue =>
    obtain ⟨rfl, hdue⟩ := hdue
    have hdeparted : u ∈ Action.departures (h.react m .tick).2 := by
      change u ∈ Action.departures (h.onTick m).2
      rwa [onTick_departures, if_pos hdue]
    rw [react_activeUsers horderly, List.mem_filter, decide_eq_true_eq]
    exact fun hin => hin.2 hdeparted
  · cases halert

/-- Whoever is moved out has asked to exit or is alerted. -/
theorem moved_out (horderly : h.booth.Orderly) (hin : u ∈ h.booth.activeUsers)
    (hout : u ∉ (h.react m i).1.booth.activeUsers) :
    (∃ rssi snr, i = .message u .exitRequest rssi snr) ∨ u ∈ alerted (Action.sent (h.react m i).2) := by
  by_cases hexit : ∃ rssi snr, i = .message u .exitRequest rssi snr
  · exact .inl hexit
  · have hstays := react_active (m := m) horderly hin fun rssi snr heq => hexit ⟨rssi, snr, heq⟩
    exact .inr (mem_alerted.mpr (hstays.resolve_left hout))

end Host

end BoothFloor
