import BoothFloor.Proofs.Host.Letters

/-!
# Whom a host confirms

A host answers nobody but a visitor who asks to be registered, and it says that a registration has succeeded to
nobody but those on its list of users admitted. This list only grows, so a confirmation stays true however late it
arrives and however often.
-/

namespace BoothFloor

/-- The answer that a verdict calls for: whether the registration has succeeded, and why or why not. -/
def Verdict.reply? : Verdict → Option (Bool × RegisterReason)
  | admitted _ | alreadyActive => some (true, .success)
  | alreadyUsed => some (false, .alreadyUsed)
  | queued .. => some (false, .fullWaiting)
  | rejected _ => none

namespace Booth

/-- News of an offer withdrawn is news of the queue. -/
theorem mem_withdrawalLetters {b : Booth} {now : Instant} {limit : Span} {u : NodeId} {msg : Message}
    (h : (u, msg) ∈ b.withdrawalLetters now limit) :
    ∃ position total, msg = .queueUpdate position total := by
  unfold withdrawalLetters at h
  split at h
  · rcases List.mem_cons.mp h with hfirst | hrest
    · exact ⟨0, 0, (Prod.mk.inj hfirst).2⟩
    · exact (mem_queueUpdates hrest).2
  · cases h

/-- Judging a request takes nobody off the list of those admitted. -/
theorem mem_registered_register {b : Booth} {v : NodeId} (hv : v ∈ b.registered) (u : NodeId)
    (now : Instant) : v ∈ (b.register u now).2.registered := by
  have hjudged := register_judged b u now
  generalize b.register u now = outcome at hjudged
  cases hjudged with
  | enters => exact List.mem_append_left _ hv
  | _ => exact hv

/-- Leaving the queue has no influence on the list of those admitted. -/
theorem leaveQueue_registered (b : Booth) (u : NodeId) :
    (b.leaveQueue u).2.registered = b.registered := by
  change ((b.removeWaiting u).releaseOffer u).registered = _
  rw [releaseOffer_eq]
  rfl

/-- Ending overdue sessions has no influence on the list of those admitted. -/
theorem sweepSessions_registered (b : Booth) (now : Instant) (limit : Span) :
    (b.sweepSessions now limit).2.registered = b.registered := by
  rw [sweepSessions_snd]

/-- Withdrawing an overdue offer has no influence on the list of those admitted. -/
theorem sweepOffer_registered (b : Booth) (now : Instant) (limit : Span) :
    (b.sweepOffer now limit).2.registered = b.registered := by
  rcases b.sweepOffer_cases now limit with ⟨o, -, -, heq⟩ | heq <;> rw [heq]

/-- Offering a slot has no influence on the list of those admitted. -/
theorem offerNext_registered (b : Booth) (now : Instant) :
    (b.offerNext now).2.registered = b.registered := by rw [offerNext_snd]

/-- Offering a slot has no influence on those inside. -/
theorem offerNext_active (b : Booth) (now : Instant) : (b.offerNext now).2.active = b.active := by
  rw [offerNext_snd]

/-- News of the queue answers no request to register. -/
theorem not_answer_queueUpdates (b : Booth) (u : NodeId) (success : Bool) (reason : RegisterReason) :
    (u, .registerResponse success reason) ∉ b.queueUpdates := by
  intro hmem
  obtain ⟨-, _, _, heq⟩ := mem_queueUpdates hmem
  cases heq

/-- The offer of a slot answers no request to register. -/
theorem not_answer_offerLetters (b : Booth) (now : Instant) (u : NodeId) (success : Bool) (reason : RegisterReason) :
    (u, .registerResponse success reason) ∉ b.offerLetters now := by
  intro hmem
  cases (mem_offerLetters hmem).2

/-- Of the messages that a request to register leads to, only the one to the user who has asked is an answer, and
it is the one that the verdict calls for. -/
theorem mem_answerLetters {u v : NodeId} {now : Instant} {judged : Verdict × Booth} {success : Bool}
    {reason : RegisterReason} :
    (v, .registerResponse success reason) ∈ answerLetters u now judged ↔
      v = u ∧ judged.1.reply? = some (success, reason) := by
  obtain ⟨verdict, b⟩ := judged
  rcases verdict with (_ | _) | _ | _ | _ | _
  case admitted.true =>
    simp [answerLetters, Verdict.reply?, not_answer_queueUpdates, not_answer_offerLetters, eq_comm]
  all_goals simp [answerLetters, Verdict.reply?, eq_comm]

/-- The answer to a request confirms the user who has asked, and only once it is inside. -/
theorem active_of_answer {b : Booth} {u v : NodeId} {now : Instant} {reason : RegisterReason}
    (hmem : (v, .registerResponse true reason) ∈ answerLetters u now (b.register u now)) :
    v = u ∧ v ∈ (b.register u now).2.activeUsers := by
  obtain ⟨rfl, hreply⟩ := mem_answerLetters.mp hmem
  have hjudged := register_judged b v now
  generalize b.register v now = outcome at hjudged hreply
  refine ⟨rfl, ?_⟩
  cases hjudged with
  | confirmed hin => exact hin
  | enters => exact b.mem_activeUsers_welcome v now
  | refused | stays | joins | turnedAway | unlisted => simp [Verdict.reply?] at hreply

end Booth

namespace Host

/-- Once admitted, a user stays on the list. -/
theorem react_registered (h : Host) (m : Moment) (i : Input) {v : NodeId}
    (hv : v ∈ h.booth.registered) : v ∈ (h.react m i).1.booth.registered := by
  apply h.react_keeps (P := fun b => v ∈ b.registered) m i hv
  · exact fun b u _ _ _ hb => Booth.mem_registered_register hb u m.now
  · exact fun b u _ _ _ hb => hb
  · exact fun b u _ _ _ hb => b.leaveQueue_registered u ▸ hb
  · exact fun b limit _ hb => b.sweepSessions_registered m.now limit ▸ hb
  · exact fun b limit _ hb => b.sweepOffer_registered m.now limit ▸ hb
  · exact fun b hb => b.offerNext_registered m.now ▸ hb

/-- A tick answers no request to register. -/
theorem not_answered_onTick {h : Host} {m : Moment} {v : NodeId} {success : Bool} {reason : RegisterReason} :
    (v, .registerResponse success reason) ∉ Action.sent (h.onTick m).2 := by
  intro hsent
  rw [onTick_sent, broadcast_sent, List.mem_append] at hsent
  rcases hsent with hsent | hsent
  · split at hsent
    · simp only [sweep_sent, List.mem_append, List.mem_map, Prod.mk.injEq, reduceCtorEq, and_false,
        exists_false, false_or] at hsent
      rcases hsent with hsent | hsent
      · obtain ⟨_, _, heq⟩ := Booth.mem_withdrawalLetters hsent
        cases heq
      · exact Booth.not_answer_offerLetters _ _ _ _ _ hsent
    · cases hsent
  · split at hsent
    · simp at hsent
    · cases hsent

/-- Only a guest's request to register is answered as such, and the answer is the one that the verdict calls for. -/
theorem onMessage_answers {h : Host} {now : Instant} {u v : NodeId} {msg : Message} {success : Bool}
    {reason : RegisterReason}
    (hsent : (v, .registerResponse success reason) ∈ Action.sent (h.onMessage now u msg).2) :
    msg = .registerRequest ∧ h.rules.isHost u = false ∧
      (v, .registerResponse success reason) ∈ Booth.answerLetters u now (h.booth.register u now) := by
  rw [onMessage_sent] at hsent
  split at hsent
  · cases hsent
  · next hguest =>
    cases msg with
    | registerRequest =>
      rw [onRegister_sent] at hsent
      exact ⟨rfl, Bool.eq_false_iff.mpr hguest, hsent⟩
    | exitRequest =>
      simp only [onExit_sent] at hsent
      split at hsent
      · rcases List.mem_cons.mp hsent with hfirst | hoffer
        · cases hfirst
        · exact absurd hoffer (Booth.not_answer_offerLetters _ _ _ _ _)
      · cases List.mem_singleton.mp hsent
    | queueLeave =>
      simp only [onQueueLeave_sent, List.mem_append] at hsent
      rcases hsent with hnews | hoffer
      · split at hnews
        · exact absurd hnews (Booth.not_answer_queueUpdates _ _ _ _)
        · cases hnews
      · split at hoffer
        · exact absurd hoffer (Booth.not_answer_offerLetters _ _ _ _ _)
        · cases hoffer
    | chat sender text =>
      simp only [onChat_sent] at hsent
      split at hsent
      · simp at hsent
      · cases hsent
    | _ => simp at hsent

/-- A reaction answers nobody but a visitor who has just asked to be registered, as the verdict calls for. -/
theorem react_answers {h : Host} {m : Moment} {i : Input} {v : NodeId} {success : Bool} {reason : RegisterReason}
    (hsent : (v, .registerResponse success reason) ∈ Action.sent (h.react m i).2) :
    (∃ rssi snr, i = .message v .registerRequest rssi snr) ∧ h.rules.isHost v = false ∧
      (v, .registerResponse success reason) ∈ Booth.answerLetters v m.now (h.booth.register v m.now) := by
  cases i with
  | start => simp [react, announceTo, Action.sent] at hsent
  | timer => cases hsent
  | intent i => cases i <;> simp [react, onIntent, Action.sent] at hsent
  | tick => exact absurd hsent not_answered_onTick
  | message u msg rssi snr =>
    obtain ⟨rfl, hguest, hanswer⟩ := onMessage_answers hsent
    obtain ⟨rfl, -⟩ := Booth.mem_answerLetters.mp hanswer
    exact ⟨⟨rssi, snr, rfl⟩, hguest, hanswer⟩

/-- A reaction confirms a visitor only on its own request, and only if it is inside afterwards. -/
theorem react_confirms {h : Host} {m : Moment} {i : Input} {v : NodeId} {reason : RegisterReason}
    (hsent : (v, .registerResponse true reason) ∈ Action.sent (h.react m i).2) :
    (∃ rssi snr, i = .message v .registerRequest rssi snr) ∧ h.rules.isHost v = false ∧
      v ∈ (h.react m i).1.booth.activeUsers := by
  obtain ⟨⟨rssi, snr, rfl⟩, hguest, hanswer⟩ := react_answers hsent
  refine ⟨⟨rssi, snr, rfl⟩, hguest, ?_⟩
  have hin := (Booth.active_of_answer hanswer).2
  rw [react_register_guest hguest, onRegister_fst]
  dsimp only
  split
  · rw [Booth.activeUsers, Booth.offerNext_active]
    exact hin
  · exact hin

/-- Once admitted, a user stays on the list for a whole run. -/
theorem run_registered (h : Host) (events : List (Moment × Input)) {v : NodeId}
    (hv : v ∈ h.booth.registered) : v ∈ (h.run events).1.booth.registered :=
  runWith_keeps (P := fun h : Host => v ∈ h.booth.registered) hv fun h m i _ hmem =>
    h.react_registered m i hmem

/-- Whoever is confirmed in a run is a visitor, has asked for it and is on the list afterwards. -/
theorem registered_of_confirmed {h : Host} (horderly : h.booth.Orderly)
    {events : List (Moment × Input)} {v : NodeId} {reason : RegisterReason}
    (hsent : (v, .registerResponse true reason) ∈ Action.sent (h.run events).2) :
    (∃ m rssi snr, (m, .message v .registerRequest rssi snr) ∈ events) ∧ h.rules.isHost v = false ∧
      v ∈ (h.run events).1.booth.registered := by
  induction events generalizing h with
  | nil => cases hsent
  | cons e rest ih =>
    obtain ⟨m, i⟩ := e
    have horderly' := react_orderly horderly m i
    change _ ∈ Action.sent ((h.react m i).2 ++ ((h.react m i).1.run rest).2) at hsent
    rw [Action.sent_append, List.mem_append] at hsent
    rcases hsent with hfirst | hrest
    · obtain ⟨⟨rssi, snr, rfl⟩, hguest, hactive⟩ := react_confirms hfirst
      exact ⟨⟨m, rssi, snr, List.mem_cons_self⟩, hguest,
        run_registered _ rest (horderly'.active_registered v hactive)⟩
    · obtain ⟨⟨m', rssi, snr, hmem⟩, hguest, hlisted⟩ := ih horderly' hrest
      exact ⟨⟨m', rssi, snr, List.mem_cons_of_mem _ hmem⟩, h.react_rules m i ▸ hguest, hlisted⟩

end Host

end BoothFloor
