import BoothFloor.Proofs.Node.Step

/-!
# What a node counts as lost

A node can lose a frame in two ways: a frame for which there is no room in the inbox overwrites another one,
and a frame that cannot be read is dropped. In a turn nothing is overwritten, and of the frames that are read
exactly those are dropped that carry no message.
-/

namespace BoothFloor

namespace Turn

/-- Feeding an input leaves the counters alone. -/
theorem feed_counters (t : Turn) (i : Input) : (t.feed i).node.counters = t.node.counters := rfl

/-- The first turn's start leaves the counters alone. -/
theorem begin_counters (t : Turn) : t.begin.node.counters = t.node.counters := by
  unfold begin
  split <;> rfl

/-- Acting on a signal changes the counters as the act does, if at all. -/
theorem onSignal_counters {g : Signal} {act : Turn → Turn} (hact : ∀ t, (act t).node.counters = t.node.counters)
    (t : Turn) : (t.onSignal g act).node.counters = t.node.counters := by
  unfold onSignal
  split
  · exact hact _
  · rfl

/-- Handling the intents leaves the counters alone. -/
theorem readIntents_counters (t : Turn) : t.readIntents.node.counters = t.node.counters := by
  have hall (l : List Intent) (t : Turn) :
      (l.foldl (fun t i => t.feed (.intent i)) t).node.counters = t.node.counters := by
    induction l generalizing t with
    | nil => rfl
    | cons i rest ih => exact ih (t.feed (.intent i))
  exact hall _ _

/-- A frame that is read is counted, and as dropped too if it cannot be read. Nothing else is counted. -/
theorem readFrame_counters (t : Turn) (f : Frame) : (t.readFrame f).node.counters =
    { t.node.counters with
      framesReceived := t.node.counters.framesReceived + 1
      framesDropped := t.node.counters.framesDropped + if (t.node.rules.hear f).isNone then 1 else 0 } := by
  rw [readFrame_eq]
  cases t.node.rules.hear f with
  | some i => rfl
  | none => rfl

/-- Reading some frames counts each of them. -/
theorem foldl_readFrame_framesReceived (t : Turn) (frames : List Frame) :
    (frames.foldl readFrame t).node.counters.framesReceived = t.node.counters.framesReceived + frames.length := by
  induction frames generalizing t with
  | nil => rfl
  | cons f rest ih =>
    rw [List.foldl_cons, ih, readFrame_counters, List.length_cons, Nat.add_assoc, Nat.add_comm 1]

/-- Reading some frames counts nothing but frames. -/
theorem exists_foldl_readFrame_counters (t : Turn) (frames : List Frame) :
    ∃ received dropped, (frames.foldl readFrame t).node.counters =
      { t.node.counters with framesReceived := received, framesDropped := dropped } := by
  induction frames generalizing t with
  | nil => exact ⟨_, _, rfl⟩
  | cons f rest ih =>
    obtain ⟨received, dropped, heq⟩ := ih (t.readFrame f)
    rw [List.foldl_cons, heq, readFrame_counters]
    exact ⟨received, dropped, rfl⟩

/-- Of some frames those are dropped that cannot be read. -/
theorem foldl_readFrame_framesDropped (t : Turn) (frames : List Frame) :
    (frames.foldl readFrame t).node.counters.framesDropped =
      t.node.counters.framesDropped + frames.countP fun f => (t.node.rules.hear f).isNone := by
  induction frames generalizing t with
  | nil => rfl
  | cons f rest ih =>
    rw [List.foldl_cons, ih, readFrame_counters, (readFrame_follows t f).rules, List.countP_cons]
    dsimp only
    omega

end Turn

namespace Node

variable {n : Node}

/-- Handling the timeouts and the intents counts nothing. -/
theorem intended_counters (n : Node) (now : Instant) :
    (n.intended now).node.counters = (n.read now).node.counters := by
  have hselected : (n.selected now).node.counters = (n.read now).node.counters :=
    Turn.onSignal_counters (fun t => t.feed_counters _) _
  have hretried : (n.retried now).node.counters = (n.selected now).node.counters :=
    Turn.onSignal_counters (fun t => t.feed_counters _) _
  have hintended : (n.intended now).node.counters = (n.retried now).node.counters :=
    Turn.onSignal_counters Turn.readIntents_counters _
  rw [hintended, hretried, hselected]

/-- Once the frames have been read, a turn changes no count but that of the confirmations, and that by one at most. -/
theorem exists_turn_counters (n : Node) (now : Instant) :
    ∃ confirmations ≤ (n.read now).node.counters.sendConfirmations + 1,
      (n.turn now).node.counters = { (n.read now).node.counters with sendConfirmations := confirmations } := by
  rw [turn_eq, Turn.feed_counters, ← intended_counters]
  unfold Turn.onSignal
  split
  · exact ⟨_, Nat.le_refl _, rfl⟩
  · exact ⟨_, Nat.le_succ _, rfl⟩

/-- Before the frames are read, a turn counts the tick. -/
theorem polled_counters (n : Node) (now : Instant) : (n.polled now).node.counters = Turn.countTick n.counters := by
  change Turn.countTick (Turn.begin { node := { n with now := now, tick := n.tick + 1 } }).node.counters = _
  rw [Turn.begin_counters]

/-- Once the frames have been read, a turn has counted the tick and frames, and nothing else. -/
theorem exists_read_counters (n : Node) (now : Instant) :
    ∃ received dropped, (n.read now).node.counters =
      { Turn.countTick n.counters with framesReceived := received, framesDropped := dropped } := by
  rw [← n.polled_counters now]
  unfold read Turn.onSignal
  split
  · exact Turn.exists_foldl_readFrame_counters _ _
  · exact ⟨_, _, rfl⟩

/-- A turn drops the frames of the inbox that cannot be read, if it reads any. -/
theorem turn_framesDropped (n : Node) (now : Instant) :
    (n.turn now).node.counters.framesDropped = n.counters.framesDropped +
      if n.inbox.signals.isSet .messageArrived then
        n.inbox.frames.items.countP fun f => (n.rules.hear f).isNone
      else 0 := by
  have hmail := n.polled_sameMail now
  have hpolled : (n.polled now).node.counters.framesDropped = n.counters.framesDropped := by
    rw [polled_counters, Turn.countTick]
  obtain ⟨confirmations, -, hturn⟩ := n.exists_turn_counters now
  rw [hturn, ← hpolled]
  unfold read Turn.onSignal
  rw [hmail.signals _ rfl]
  split
  · change (((n.polled now).node.inbox.frames.items).foldl Turn.readFrame _).node.counters.framesDropped = _
    rw [Turn.foldl_readFrame_framesDropped, hmail.frames, ← (n.polled_machine now).2.2.2.1]
  · rfl

/-- A turn reads all frames of the inbox, if they are announced, and counts them. -/
theorem turn_framesReceived (n : Node) (now : Instant) :
    (n.turn now).node.counters.framesReceived = n.counters.framesReceived +
      if n.inbox.signals.isSet .messageArrived then n.inbox.frames.items.length else 0 := by
  have hmail := n.polled_sameMail now
  have hpolled : (n.polled now).node.counters.framesReceived = n.counters.framesReceived := by
    rw [polled_counters, Turn.countTick]
  obtain ⟨confirmations, -, hturn⟩ := n.exists_turn_counters now
  rw [hturn, ← hpolled]
  unfold read Turn.onSignal
  rw [hmail.signals _ rfl]
  split
  · change (((n.polled now).node.inbox.frames.items).foldl Turn.readFrame _).node.counters.framesReceived = _
    rw [Turn.foldl_readFrame_framesReceived, hmail.frames]
  · rfl

/-- A step drops nothing if every frame of the inbox can be read. -/
theorem step_framesDropped (hlegible : ∀ f ∈ n.inbox.frames.items, (n.rules.hear f).isSome = true)
    (now : Instant) (takes : Nat → Bool) :
    (n.step now takes).1.counters.framesDropped = n.counters.framesDropped := by
  have hnone : n.inbox.frames.items.countP (fun f => (n.rules.hear f).isNone) = 0 := by
    refine List.countP_eq_zero.mpr fun f hf hunread => ?_
    have hread := hlegible f hf
    rw [Option.isNone_iff_eq_none.mp hunread] at hread
    cases hread
  change (n.turn now).node.counters.framesDropped = _
  rw [turn_framesDropped, hnone, ite_self, Nat.add_zero]

/-- A step overwrites nothing. -/
theorem step_overwritten (n : Node) (now : Instant) (takes : Nat → Bool) :
    (n.step now takes).1.inbox.frames.overwritten = n.inbox.frames.overwritten := by
  change (n.turn now).node.inbox.frames.overwritten = _
  rw [(n.turn_sameMail now).frames, Inbox.afterTurn_frames]
  split <;> rfl

/-- Of some messages each is counted, by whether the link took it. -/
theorem countSends_total (sent : List Dispatch) (c : Counters) :
    (countSends sent c).messagesSent + (countSends sent c).sendFailures =
      c.messagesSent + c.sendFailures + sent.length := by
  have htaken := sent.countP_le_length (p := (·.taken))
  change c.messagesSent + sent.countP (·.taken) + (c.sendFailures + (sent.length - sent.countP (·.taken))) = _
  omega

/-- A step counts each of its messages, by whether the link took it. -/
theorem step_counts_messages (n : Node) (now : Instant) (takes : Nat → Bool) :
    (n.step now takes).1.counters.messagesSent + (n.step now takes).1.counters.sendFailures =
      n.counters.messagesSent + n.counters.sendFailures + (n.turn now).sent.length := by
  obtain ⟨confirmations, -, hturn⟩ := n.exists_turn_counters now
  obtain ⟨received, dropped, hread⟩ := n.exists_read_counters now
  change (countSends (dispatch takes (n.turn now).sent) (n.turn now).node.counters).messagesSent +
    (countSends (dispatch takes (n.turn now).sent) (n.turn now).node.counters).sendFailures = _
  rw [countSends_total, hturn, hread, dispatch, List.length_mapIdx]
  rfl

end Node

end BoothFloor
