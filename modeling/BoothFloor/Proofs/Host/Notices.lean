import BoothFloor.Proofs.Host.Letters

/-!
# What a host reports

The notices of a host, operation by operation, apart from its messages. They tell of every step of a
visitor through the booth: its place in the queue, its admission, its refusal, its exit, the end of its
time and an offer made or withdrawn.
-/

namespace BoothFloor

namespace Booth

/-- The notice of the offer of a free slot to the head of the queue, if it is offered. -/
def offerNotices (b : Booth) (now : Instant) : List Notice := (b.offerNext now).1.toList.map .offerSent

/-- The notices of a request to register that ended as told. -/
def answerNotices (u : NodeId) (now : Instant) (judged : Verdict × Booth) : List Notice :=
  match judged.1 with
  | .admitted true => .userAdmitted u :: judged.2.offerNotices now
  | .admitted false => [.userAdmitted u]
  | .alreadyUsed => [.userRefused u]
  | .queued position total => [.userQueued u (clampByte position) (clampByte total)]
  | .alreadyActive => []
  | .rejected _ => []

/-- The notices of an offer withdrawn in a sweep. -/
def withdrawalNotices (b : Booth) (now : Instant) (limit : Span) : List Notice :=
  (b.sweepOffer now limit).1.toList.map .offerExpired

end Booth

namespace Host

/-- The news of the queue is not reported. -/
@[simp]
theorem tellQueue_emitted (b : Booth) : Action.emitted (tellQueue b) = [] := Action.emitted_map_send _ _ _

/-- Handing a free slot on reports the offer. -/
theorem offerSlot_emitted (now : Instant) (h : Host) :
    Action.emitted (offerSlot now h).2 = h.booth.offerNotices now := by
  unfold offerSlot Booth.offerNotices
  split <;> next heq =>
    rw [heq]
    rfl

/-- A request to register is reported by its outcome. -/
theorem onRegister_emitted (h : Host) (now : Instant) (u : NodeId) :
    Action.emitted (h.onRegister now u).2 = Booth.answerNotices u now (h.booth.register u now) := by
  unfold onRegister Booth.answerNotices
  generalize h.booth.register u now = outcome
  obtain ⟨verdict, b⟩ := outcome
  cases verdict with
  | admitted leftQueue =>
    cases leftQueue with
    | false => rfl
    | true =>
      simp only [if_true, andThen, Action.emitted_append, tellQueue_emitted, offerSlot_emitted]
      rfl
  | _ => rfl

/-- The exit of a user inside is reported, and the offer of its slot. -/
theorem onExit_emitted (h : Host) (now : Instant) (u : NodeId) :
    Action.emitted (h.onExit now u).2 =
      if u ∈ h.booth.activeUsers then .userExited u :: (h.booth.removeActive u).2.offerNotices now
      else [] := by
  have hsome := h.booth.isSome_removeActive u
  unfold onExit
  split <;> next heq =>
    rw [heq] at hsome ⊢
    simp only [Option.isSome_none, Option.isSome_some, Bool.false_eq_true, true_iff, false_iff] at hsome
    simp only [hsome, if_true, if_false, andThen, Action.emitted_append, offerSlot_emitted]
    rfl

/-- A departure from the queue is reported only by the offer that it passes on. -/
theorem onQueueLeave_emitted (h : Host) (now : Instant) (u : NodeId) :
    Action.emitted (h.onQueueLeave now u).2 =
      if h.booth.isOffered u then (h.booth.leaveQueue u).2.offerNotices now else [] := by
  have hreleased : (h.booth.leaveQueue u).1.offerReleased = h.booth.isOffered u := rfl
  unfold onQueueLeave
  generalize h.booth.leaveQueue u = outcome at hreleased
  obtain ⟨departure, b⟩ := outcome
  dsimp only at hreleased
  have htold : Action.emitted (if departure.removed then tellQueue b else []) = [] := by
    split
    · exact tellQueue_emitted b
    · rfl
  simp only [hreleased]
  split
  · simp only [andThen, Action.emitted_append, offerSlot_emitted, htold, List.nil_append]
  · exact htold

/-- Chat from inside is reported. -/
theorem onChat_emitted (h : Host) (u : NodeId) (text : String) :
    Action.emitted (h.onChat u text).2 =
      if u ∈ h.booth.activeUsers then [.chatReceived u (some u) text] else [] := by
  unfold onChat
  simp only [← Booth.isActive_iff]
  split
  · rw [Action.emitted_append, Action.emitted_map_send]
    rfl
  · rfl

/-- The sessions that are over are reported. -/
theorem sweepSessions_emitted (now : Instant) (h : Host) :
    Action.emitted (sweepSessions now h).2 =
      (h.booth.expired now h.rules.sessionDuration).map .sessionExpired := by
  change Action.emitted ((h.booth.expired now h.rules.sessionDuration).flatMap fun u =>
    [.send u .timeoutAlert, .emit (.sessionExpired u)]) = _
  induction h.booth.expired now h.rules.sessionDuration with
  | nil => rfl
  | cons u rest ih =>
    rw [List.flatMap_cons, Action.emitted_append, ih]
    rfl

/-- An offer withdrawn is reported. -/
theorem sweepOffer_emitted (now : Instant) (h : Host) :
    Action.emitted (sweepOffer now h).2 = h.booth.withdrawalNotices now h.rules.queueReadyTimeout := by
  unfold sweepOffer Booth.withdrawalNotices
  rcases h.booth.sweepOffer now h.rules.queueReadyTimeout with ⟨_ | u, b⟩
  · rfl
  · rw [Action.emitted_append, tellQueue_emitted]
    rfl

/-- A sweep reports the sessions that are over, an offer withdrawn and a new one. -/
theorem sweep_emitted (now : Instant) (h : Host) :
    Action.emitted (sweep now h).2 =
      (h.booth.expired now h.rules.sessionDuration).map .sessionExpired ++
        (h.booth.sweepSessions now h.rules.sessionDuration).2.withdrawalNotices now
          h.rules.queueReadyTimeout ++
        ((h.booth.sweepSessions now h.rules.sessionDuration).2.sweepOffer now
          h.rules.queueReadyTimeout).2.offerNotices now := by
  unfold sweep
  simp only [andThen, Action.emitted_append, sweepSessions_emitted, sweepOffer_emitted, offerSlot_emitted,
    sweepOffer_fst]
  rfl

/-- The periodic announcement is not reported. -/
theorem broadcast_emitted (tick : Nat) (h : Host) : Action.emitted (broadcast tick h).2 = [] := by
  unfold broadcast
  split <;> rfl

/-- Other hosts are not reported; of everyone else the requests and chat from inside are. -/
theorem onMessage_emitted (h : Host) (now : Instant) (source : NodeId) (message : Message) :
    Action.emitted (h.onMessage now source message).2 =
      if h.rules.isHost source then []
      else match message with
        | .registerRequest => Action.emitted (h.onRegister now source).2
        | .exitRequest => Action.emitted (h.onExit now source).2
        | .queueLeave => Action.emitted (h.onQueueLeave now source).2
        | .chat _ text => Action.emitted (h.onChat source text).2
        | _ => [] := by
  unfold onMessage
  split
  · rfl
  · cases message <;> rfl

/-- A tick reports what a sweep that is due reports. -/
theorem onTick_emitted (h : Host) (m : Moment) :
    Action.emitted (h.onTick m).2 =
      if m.tick % h.rules.sweepInterval.toNat = 0 then Action.emitted (sweep m.now h).2 else [] := by
  unfold onTick
  rw [andThen, Action.emitted_append, broadcast_emitted, List.append_nil]
  split <;> rfl

end Host

end BoothFloor
