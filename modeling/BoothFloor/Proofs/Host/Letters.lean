import BoothFloor.Proofs.Action
import BoothFloor.Proofs.Host.Register

/-!
# What a host sends

The messages of a host, operation by operation, apart from its notices. Three groups recur: the news of
the queue, the offer to the next waiter and the answer to a request to register; everything that a
host says to its visitors is put together from them and from single messages.
-/

namespace BoothFloor

namespace Booth

/-- The message that offers a free slot to the head of the queue, if it is offered. -/
def offerLetters (b : Booth) (now : Instant) : List (NodeId × Message) :=
  (b.offerNext now).1.toList.map (·, .queueReady)

/-- The messages that answer a request to register that ended as told. -/
def answerLetters (u : NodeId) (now : Instant) (judged : Verdict × Booth) : List (NodeId × Message) :=
  match judged.1 with
  | .admitted true =>
    (u, .registerResponse true .success) :: (judged.2.queueUpdates ++ judged.2.offerLetters now)
  | .admitted false => [(u, .registerResponse true .success)]
  | .alreadyActive => [(u, .registerResponse true .success)]
  | .alreadyUsed => [(u, .registerResponse false .alreadyUsed)]
  | .queued position total =>
    [(u, .registerResponse false .fullWaiting), (u, .queueInfo (clampByte position) (clampByte total))]
  | .rejected _ => []

/-- The messages that tell of an offer withdrawn in a sweep. -/
def withdrawalLetters (b : Booth) (now : Instant) (limit : Span) : List (NodeId × Message) :=
  match b.sweepOffer now limit with
  | (some u, b) => (u, .queueUpdate 0 0) :: b.queueUpdates
  | (none, _) => []

/-- There is a session to end exactly for the users inside. -/
theorem isSome_removeActive (b : Booth) (u : NodeId) :
    (b.removeActive u).1.isSome = true ↔ u ∈ b.activeUsers := by
  rw [← isActive_iff, isActive, removeActive, List.find?_isSome, List.any_eq_true]

/-- News of the queue goes to waiters. -/
theorem mem_queueUpdates {b : Booth} {u : NodeId} {msg : Message} (h : (u, msg) ∈ b.queueUpdates) :
    u ∈ b.waiting ∧ ∃ position total, msg = .queueUpdate position total := by
  rw [queueUpdates, List.mem_mapIdx] at h
  obtain ⟨i, hi, heq⟩ := h
  obtain ⟨rfl, rfl⟩ := Prod.mk.inj heq
  exact ⟨List.getElem_mem hi, _, _, rfl⟩

/-- An offer is one message to the head of the queue; without one nothing is said and the booth is as it was. -/
theorem offerLetters_cases (b : Booth) (now : Instant) :
    (∃ head rest, b.waiting = head :: rest ∧ b.offer = none ∧ (b.offerNext now).2 = b.setOffer head now ∧
        b.offerLetters now = [(head, .queueReady)]) ∨
      (b.offerNext now).2 = b ∧ b.offerLetters now = [] := by
  rw [offerLetters]
  rcases b.offerNext_cases now with ⟨head, rest, hwait, hnone, -, heq⟩ | ⟨-, heq⟩ <;> rw [heq]
  · exact .inl ⟨head, rest, hwait, hnone, rfl, rfl⟩
  · exact .inr ⟨rfl, rfl⟩

/-- An offer goes to a waiter. -/
theorem mem_offerLetters {b : Booth} {now : Instant} {u : NodeId} {msg : Message}
    (h : (u, msg) ∈ b.offerLetters now) : u ∈ b.waiting ∧ msg = .queueReady := by
  rcases b.offerLetters_cases now with ⟨head, rest, hwait, -, -, hletters⟩ | ⟨-, hletters⟩ <;> rw [hletters] at h
  · obtain ⟨rfl, rfl⟩ := Prod.mk.inj (List.mem_singleton.mp h)
    exact ⟨hwait ▸ List.mem_cons_self, rfl⟩
  · cases h

end Booth

namespace Host

/-- The news of the queue. -/
theorem tellQueue_sent (b : Booth) : Action.sent (tellQueue b) = b.queueUpdates := by
  rw [tellQueue, Action.sent_map_send]
  exact List.map_id _

/-- Handing a free slot on sends the offer. -/
theorem offerSlot_sent (now : Instant) (h : Host) :
    Action.sent (offerSlot now h).2 = h.booth.offerLetters now := by
  unfold offerSlot Booth.offerLetters
  split <;> next heq =>
    rw [heq]
    rfl

/-- A request to register is answered. -/
theorem onRegister_sent (h : Host) (now : Instant) (u : NodeId) :
    Action.sent (h.onRegister now u).2 = Booth.answerLetters u now (h.booth.register u now) := by
  unfold onRegister Booth.answerLetters
  generalize h.booth.register u now = outcome
  obtain ⟨verdict, b⟩ := outcome
  cases verdict with
  | admitted leftQueue =>
    cases leftQueue with
    | false => rfl
    | true =>
      simp only [if_true, andThen, Action.sent_append, tellQueue_sent, offerSlot_sent]
      rfl
  | _ => rfl

/-- An exit of a user inside is confirmed and its slot is offered; another one is denied. -/
theorem onExit_sent (h : Host) (now : Instant) (u : NodeId) :
    Action.sent (h.onExit now u).2 =
      if u ∈ h.booth.activeUsers then
        (u, .exitResponse true) :: (h.booth.removeActive u).2.offerLetters now
      else [(u, .exitResponse false)] := by
  have hsome := h.booth.isSome_removeActive u
  unfold onExit
  split <;> next heq =>
    rw [heq] at hsome ⊢
    simp only [Option.isSome_none, Option.isSome_some, Bool.false_eq_true, true_iff, false_iff] at hsome
    simp only [hsome, if_true, if_false, andThen, Action.sent_append, offerSlot_sent]
    rfl

/-- The waiters are told of one who has left the queue, and its offer goes to the next. -/
theorem onQueueLeave_sent (h : Host) (now : Instant) (u : NodeId) :
    Action.sent (h.onQueueLeave now u).2 =
      (if u ∈ h.booth.waiting then (h.booth.leaveQueue u).2.queueUpdates else []) ++
        if h.booth.isOffered u then (h.booth.leaveQueue u).2.offerLetters now else [] := by
  have hremoved : (h.booth.leaveQueue u).1.removed = h.booth.isWaiting u := rfl
  have hreleased : (h.booth.leaveQueue u).1.offerReleased = h.booth.isOffered u := rfl
  unfold onQueueLeave
  generalize h.booth.leaveQueue u = outcome at hremoved hreleased
  obtain ⟨departure, b⟩ := outcome
  dsimp only at hremoved hreleased
  simp only [← Booth.isWaiting_iff, hremoved, hreleased]
  have htold : Action.sent (if h.booth.isWaiting u then tellQueue b else []) =
      if h.booth.isWaiting u then b.queueUpdates else [] := by
    split
    · exact tellQueue_sent b
    · rfl
  split
  · simp only [andThen, Action.sent_append, offerSlot_sent, htold]
  · rw [List.append_nil]
    exact htold

/-- Chat from inside is passed on to everyone else inside. -/
theorem onChat_sent (h : Host) (u : NodeId) (text : String) :
    Action.sent (h.onChat u text).2 =
      if u ∈ h.booth.activeUsers then
        (h.booth.activeUsers.filter (· ≠ u)).map (·, .chat (some u) text)
      else [] := by
  unfold onChat
  simp only [← Booth.isActive_iff]
  split
  · rw [Action.sent_append, Action.sent_map_send]
    exact List.append_nil _
  · rfl

/-- Those whose sessions are over are told so. -/
theorem sweepSessions_sent (now : Instant) (h : Host) :
    Action.sent (sweepSessions now h).2 =
      (h.booth.expired now h.rules.sessionDuration).map (·, .timeoutAlert) := by
  change Action.sent ((h.booth.expired now h.rules.sessionDuration).flatMap fun u =>
    [.send u .timeoutAlert, .emit (.sessionExpired u)]) = _
  induction h.booth.expired now h.rules.sessionDuration with
  | nil => rfl
  | cons u rest ih =>
    rw [List.flatMap_cons, Action.sent_append, ih]
    rfl

/-- Whoever loses an offer is told so, and the waiters are. -/
theorem sweepOffer_sent (now : Instant) (h : Host) :
    Action.sent (sweepOffer now h).2 = h.booth.withdrawalLetters now h.rules.queueReadyTimeout := by
  unfold sweepOffer Booth.withdrawalLetters
  rcases h.booth.sweepOffer now h.rules.queueReadyTimeout with ⟨_ | u, b⟩
  · rfl
  · rw [Action.sent_append, tellQueue_sent]
    rfl

/-- A sweep tells of the sessions that are over, of an offer withdrawn and of a new one. -/
theorem sweep_sent (now : Instant) (h : Host) :
    Action.sent (sweep now h).2 =
      (h.booth.expired now h.rules.sessionDuration).map (·, .timeoutAlert) ++
        (h.booth.sweepSessions now h.rules.sessionDuration).2.withdrawalLetters now
          h.rules.queueReadyTimeout ++
        ((h.booth.sweepSessions now h.rules.sessionDuration).2.sweepOffer now
          h.rules.queueReadyTimeout).2.offerLetters now := by
  unfold sweep
  simp only [andThen, Action.sent_append, sweepSessions_sent, sweepOffer_sent, offerSlot_sent, sweepOffer_fst]
  rfl

/-- The periodic announcement goes to everyone. -/
theorem broadcast_sent (tick : Nat) (h : Host) :
    Action.sent (broadcast tick h).2 =
      if h.broadcasting ∧ tick % h.rules.broadcastInterval.toNat = 0 then
        [(.broadcast, .boothAnnounce h.booth.status)]
      else [] := by
  unfold broadcast
  split <;> rfl

/-- Other hosts are not answered; everyone else is, by the kind of the message. -/
theorem onMessage_sent (h : Host) (now : Instant) (source : NodeId) (message : Message) :
    Action.sent (h.onMessage now source message).2 =
      if h.rules.isHost source then []
      else match message with
        | .boothScan => [(source, .boothAnnounce h.booth.status)]
        | .connectRequest =>
          [(source, .boothInfo h.booth.status.current h.booth.status.capacity h.booth.status.waiting
            h.booth.description)]
        | .registerRequest => Action.sent (h.onRegister now source).2
        | .exitRequest => Action.sent (h.onExit now source).2
        | .queueLeave => Action.sent (h.onQueueLeave now source).2
        | .chat _ text => Action.sent (h.onChat source text).2
        | _ => [] := by
  unfold onMessage
  split
  · rfl
  · cases message <;> rfl

/-- A tick sends what a sweep that is due sends, then a periodic announcement that is due. -/
theorem onTick_sent (h : Host) (m : Moment) :
    Action.sent (h.onTick m).2 =
      (if m.tick % h.rules.sweepInterval.toNat = 0 then Action.sent (sweep m.now h).2 else []) ++
        Action.sent (broadcast m.tick (h.onTick m).1).2 := by
  have hfst : (h.onTick m).1 =
      (if m.tick % h.rules.sweepInterval.toNat = 0 then sweep m.now h else (h, [])).1 := by
    unfold onTick
    rw [andThen, broadcast_fst]
  rw [hfst]
  unfold onTick
  rw [andThen, Action.sent_append]
  split <;> rfl

end Host

end BoothFloor
