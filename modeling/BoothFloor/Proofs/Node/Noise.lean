import BoothFloor.Proofs.Node.Books
import BoothFloor.Proofs.Node.Mail
import BoothFloor.Proofs.Node.History

/-!
# Noise on the air

A frame that cannot be read, by the role that its source claims, is noise. A node counts it as received and as
dropped, and that is all: with the noise taken out of its inbox it takes the same step, and while no frame has to go
for want of room, a whole life without the noise is the same life.
-/

namespace BoothFloor

/-- Whether a frame cannot be read. -/
def Rules.isNoise (r : Rules) (f : Frame) : Bool :=
  match Wire.decode f.bytes (r.hosts.roleOf f.source) with
  | .ok _ => false
  | .error _ => true

/-- What cannot be read is not heard. -/
theorem Rules.hear_of_isNoise {r : Rules} {f : Frame} (hnoise : r.isNoise f = true) : r.hear f = none := by
  unfold Rules.isNoise at hnoise
  unfold Rules.hear
  cases hdecode : Wire.decode f.bytes (r.hosts.roleOf f.source) with
  | ok m =>
    rw [hdecode] at hnoise
    cases hnoise
  | error e => rfl

/-- Whether what happens is that a frame is handed in that cannot be read. -/
def Happening.isNoise (r : Rules) : Happening → Bool
  | deliver f => r.isNoise f
  | _ => false

/-- The counts of `k` frames that could not be read. -/
def Counters.rejected (k : Nat) : Counters := { framesReceived := k, framesDropped := k }

/-- Rejected frames are counted one after the other. -/
theorem Counters.rejected_plus (j k : Nat) : (rejected j).plus (rejected k) = rejected (j + k) := rfl

namespace Turn

variable (t : Turn) {f : Frame}

/-- Noise is counted, and that is all. -/
theorem readFrame_of_isNoise (hnoise : t.node.rules.isNoise f = true) :
    t.readFrame f = t.booked (.rejected 1) t.node.inbox.coalesced := by
  rw [readFrame_eq, Rules.hear_of_isNoise hnoise]
  rfl

/-- Reading some frames counts the noise and is otherwise the reading of the others. -/
theorem foldl_readFrame_filter (frames : List Frame) : frames.foldl readFrame t =
    ((frames.filter (!t.node.rules.isNoise ·)).foldl readFrame t).booked
      (.rejected (frames.countP t.node.rules.isNoise)) t.node.inbox.coalesced := by
  induction frames generalizing t with
  | nil => rfl
  | cons f rest ih =>
    rw [List.foldl_cons]
    cases hf : t.node.rules.isNoise f with
    | true =>
      rw [List.filter_cons_of_neg (by simp [hf]), List.countP_cons_of_pos hf, readFrame_of_isNoise t hf, ih]
      change (List.foldl readFrame (t.booked _ _) (rest.filter (!t.node.rules.isNoise ·))).booked
        (.rejected (rest.countP t.node.rules.isNoise)) t.node.inbox.coalesced = _
      rw [foldl_booked t _ _ readFrame fun t f => t.readFrame_booked _ _ f, booked_booked, Counters.rejected_plus,
        Nat.add_comm]
    | false =>
      have hrules : (t.readFrame f).node.rules = t.node.rules := (readFrame_follows t f).rules
      have hcoalesced : (t.readFrame f).node.inbox.coalesced = t.node.inbox.coalesced :=
        (readFrame_sameMail t f).coalesced
      rw [List.filter_cons_of_pos (by simp [hf]), List.countP_cons_of_neg (by simp [hf]), List.foldl_cons, ih, hrules,
        hcoalesced]

/-- A turn once the frames have been taken out and before any of them is read. -/
def emptied : Turn :=
  { t with node := { t.node with inbox := (t.node.inbox.clear .messageArrived).drainFrames.2 } }

/-- Where frames are announced or none are there, all frames are read. -/
theorem onSignal_readFrames
    (hannounced : t.node.inbox.signals.isSet .messageArrived = true ∨ t.node.inbox.frames.items = []) :
    t.onSignal .messageArrived readFrames = t.node.inbox.frames.items.foldl readFrame t.emptied := by
  unfold onSignal
  split
  · rfl
  · next hsilent =>
    have hnone : t.node.inbox.frames.items = [] := hannounced.resolve_left hsilent
    have hempty : t.emptied = t := by
      have hsignals : t.node.inbox.signals.clear .messageArrived = t.node.inbox.signals :=
        Signals.put_of_isSet (Bool.eq_false_iff.mpr hsilent)
      unfold emptied Inbox.clear Inbox.drainFrames Mailbox.drain
      rw [hsignals]
      dsimp only
      rw [← hnone]
    rw [hnone, List.foldl_nil, hempty]

end Turn

/-- An inbox without the noise in it; whether the rest is announced is to be said. -/
def Inbox.hushed (r : Rules) (announced : Bool) (b : Inbox) : Inbox :=
  { b with
    frames := { b.frames with items := b.frames.items.filter (!r.isNoise ·) }
    signals := b.signals.put .messageArrived announced }

/-- A node without the noise in its inbox. -/
def Node.hushed (n : Node) (announced : Bool) : Node := { n with inbox := n.inbox.hushed n.rules announced }

namespace Turn

variable (t : Turn) (announced : Bool)

/-- A turn of a node without the noise in its inbox. -/
def hushed : Turn := { t with node := t.node.hushed announced }

/-- The machine reacts without regard to the noise. -/
theorem feed_hushed (i : Input) : (t.hushed announced).feed i = (t.feed i).hushed announced := by
  rw [feed_eq, feed_eq]
  have halarms := Action.alarmsAfter_put t.node.now ⟨t.node.timers, t.node.inbox.signals⟩
    (t.node.machine.react ⟨t.node.now, t.node.tick⟩ i).2 (g := .messageArrived) rfl announced
  simp only [hushed, Node.hushed, Inbox.hushed, halarms]

/-- A node starts without regard to the noise. -/
theorem begin_hushed : (t.hushed announced).begin = t.begin.hushed announced := by
  unfold begin
  change (if t.node.started then _ else _) = _
  split
  · rfl
  · exact feed_hushed { t with node := { t.node with started := true } } announced .start

/-- The timers are polled without regard to the noise. -/
theorem pollTimers_hushed : (t.hushed announced).pollTimers = t.pollTimers.hushed announced := by
  have hpoll := t.node.timers.poll_put t.node.now t.node.inbox.signals (g := .messageArrived) rfl announced
  simp only [pollTimers, hushed, Node.hushed, Inbox.hushed, hpoll]

/-- Once all frames have been taken out, nothing is left of the noise. -/
theorem emptied_hushed : (t.hushed announced).emptied = t.emptied := by
  simp only [emptied, hushed, Node.hushed, Inbox.hushed, Inbox.clear, Inbox.drainFrames, Mailbox.drain, Signals.clear,
    Signals.put_put]

variable {t}

/-- Of the noise nothing remains in the reading of the frames but the counts. -/
theorem readFrames_hushed
    (hloud : t.node.inbox.signals.isSet .messageArrived = true ∨ t.node.inbox.frames.items = [])
    (hrest : t.node.inbox.frames.items.filter (!t.node.rules.isNoise ·) ≠ [] → announced = true) :
    t.onSignal .messageArrived readFrames =
      ((t.hushed announced).onSignal .messageArrived readFrames).booked
        (.rejected (t.node.inbox.frames.items.countP t.node.rules.isNoise)) t.node.inbox.coalesced := by
  have hhushed : (t.hushed announced).node.inbox.signals.isSet .messageArrived = true ∨
      (t.hushed announced).node.inbox.frames.items = [] := by
    by_cases hnone : t.node.inbox.frames.items.filter (!t.node.rules.isNoise ·) = []
    · exact .inr hnone
    · exact .inl ((t.node.inbox.signals.isSet_put_self .messageArrived announced).trans (hrest hnone))
  rw [onSignal_readFrames t hloud, onSignal_readFrames _ hhushed, emptied_hushed, foldl_readFrame_filter]
  rfl

end Turn

namespace Node

variable (n : Node) {announced : Bool} (now : Instant)

/-- A node wakes up and polls its timers without regard to the noise. -/
theorem polled_hushed (announced : Bool) :
    (n.hushed announced).polled now = (n.polled now).hushed announced := by
  have hbegin : ((n.hushed announced).woken now).begin = ((n.woken now).begin).hushed announced :=
    (n.woken now).begin_hushed announced
  rw [polled_eq, polled_eq, hbegin]
  exact Turn.pollTimers_hushed (((n.woken now).begin).counting Turn.countTick) announced

variable {n}

/-- A step of a node that has noise in its inbox is the step without it, but for the counts. -/
theorem step_hushed (hloud : n.inbox.signals.isSet .messageArrived = true ∨ n.inbox.frames.items = [])
    (hrest : n.inbox.frames.items.filter (!n.rules.isNoise ·) ≠ [] → announced = true) (takes : Nat → Bool) :
    n.step now takes =
      (((n.hushed announced).step now takes).1.booked (.rejected (n.inbox.frames.items.countP n.rules.isNoise))
        n.inbox.coalesced, ((n.hushed announced).step now takes).2) := by
  apply step_of_turn_booked
  have hmail := n.polled_sameMail now
  have hrules : (n.polled now).node.rules = n.rules := (n.polled_machine now).2.2.2.1
  have hread := Turn.readFrames_hushed (t := n.polled now) announced
    (by rwa [hmail.signals _ rfl, hmail.frames]) (by rwa [hmail.frames, hrules])
  rw [hmail.frames, hrules, hmail.coalesced, ← n.polled_hushed now announced] at hread
  rw [turn_eq_finish, turn_eq_finish, read, read, hread, Turn.finish_booked]

/-- Noise that is handed in and finds room is gone when the noise is taken out. -/
theorem hushed_deliver_of_isNoise {f : Frame} (hends : 0 < n.inbox.frames.receivers)
    (hnoise : n.rules.isNoise f = true) (hroom : n.inbox.frames.items.length < n.inbox.frames.depth)
    (announced : Bool) :
    (n.deliver f).hushed announced = (n.hushed announced).booked {} (n.deliver f).inbox.coalesced := by
  have hrest : (n.inbox.frames.items ++ [f]).filter (!n.rules.isNoise ·) =
      n.inbox.frames.items.filter (!n.rules.isNoise ·) := by simp [hnoise]
  simp only [deliver, Inbox.deliver_eq hends, Inbox.raise, Mailbox.push_of_lt hends hroom, hushed, Inbox.hushed,
    Signals.raise, Signals.put_put, hrest]
  rfl

/-- Any other frame that finds room is handed in as if there was no noise. -/
theorem hushed_deliver {f : Frame} (hends : 0 < n.inbox.frames.receivers) (hlegible : n.rules.isNoise f = false)
    (hroom : n.inbox.frames.items.length < n.inbox.frames.depth) (announced : Bool) :
    (n.deliver f).hushed true = ((n.hushed announced).deliver f).booked {} (n.deliver f).inbox.coalesced := by
  have hrest : (n.inbox.frames.items ++ [f]).filter (!n.rules.isNoise ·) =
      n.inbox.frames.items.filter (!n.rules.isNoise ·) ++ [f] := by simp [hlegible]
  have hroom' : (n.hushed announced).inbox.frames.items.length < (n.hushed announced).inbox.frames.depth :=
    Nat.lt_of_le_of_lt (List.length_filter_le _ _) hroom
  have hends' : 0 < (n.hushed announced).inbox.frames.receivers := hends
  simp only [deliver, Inbox.deliver_eq hends, Inbox.deliver_eq hends', Inbox.raise, Mailbox.push_of_lt hends hroom,
    Mailbox.push_of_lt hends' hroom', Signals.raise]
  simp only [hushed, Inbox.hushed, Signals.put_put, hrest]
  rfl

/-- An intent is handed in as if there was no noise. -/
theorem hushed_submit (n : Node) (announced : Bool) (i : Intent) :
    (n.submit i).hushed announced = ((n.hushed announced).submit i).booked {} (n.submit i).inbox.coalesced := by
  have hsignals := n.inbox.signals.put_comm (g := .keyboardIntent) (h := .messageArrived) nofun true announced
  -- the intents are the same in both inboxes, and so is the answer
  rcases hsend : n.inbox.intents.send i with ⟨stored, intents⟩
  cases stored with
  | false =>
    simp only [submit, Inbox.submit, hsend, hushed, Inbox.hushed]
    rfl
  | true =>
    simp only [submit, Inbox.submit, hsend, if_true, Inbox.raise, hushed, Inbox.hushed, Signals.raise, hsignals]
    rfl

/-- A confirmation comes in as if there was no noise. -/
theorem hushed_confirm (n : Node) (announced : Bool) :
    n.confirm.hushed announced = ((n.hushed announced).confirm).booked {} n.confirm.inbox.coalesced := by
  have hsignals := n.inbox.signals.put_comm (g := .sendConfirmed) (h := .messageArrived) nofun true announced
  simp only [confirm, Inbox.confirm, Inbox.raise, hushed, Inbox.hushed, Signals.raise, hsignals]
  rfl

/-- A node without frames that are neither there nor announced has no noise in its inbox. -/
theorem hushed_of_empty (hnone : n.inbox.frames.items = [])
    (hsilent : n.inbox.signals.isSet .messageArrived = false) : n.hushed false = n := by
  have hframes : { n.inbox.frames with items := n.inbox.frames.items.filter (!n.rules.isNoise ·) } = n.inbox.frames := by
    rw [hnone, List.filter_nil, ← hnone]
  simp only [hushed, Inbox.hushed, hframes, Signals.put_of_isSet hsilent]

/-- What has happened to a node is what has happened to `calm`, and `noise` frames besides that cannot be read: some
of them have been counted and the others are still in the inbox. -/
def Disturbed (calm : Node) (noise : Nat) (n : Node) : Prop :=
  ∃ k, k + n.inbox.frames.items.countP n.rules.isNoise = noise ∧
    n.hushed (calm.inbox.signals.isSet .messageArrived) = calm.booked (.rejected k) n.inbox.coalesced

variable {calm : Node} {noise : Nat}

/-- A node that is disturbed has the same frames in its inbox, and noise. -/
theorem Disturbed.frames (h : calm.Disturbed noise n) :
    n.inbox.frames.items.filter (!n.rules.isNoise ·) = calm.inbox.frames.items := by
  obtain ⟨k, -, htwin⟩ := h
  exact congrArg (fun n : Node => n.inbox.frames.items) htwin

/-- While there is room, a frame that is handed in is put behind the others. -/
theorem items_deliver (hends : 0 < n.inbox.frames.receivers)
    (hroom : n.inbox.frames.items.length < n.inbox.frames.depth) (f : Frame) :
    (n.deliver f).inbox.frames.items = n.inbox.frames.items ++ [f] := by
  rw [Node.deliver, Inbox.deliver_frames, Mailbox.push_of_lt hends hroom]

/-- A node in whose inbox nothing has been overwritten once a frame was handed in had room for it. -/
theorem lt_of_overwritten_deliver {f : Frame} (hends : 0 < n.inbox.frames.receivers)
    (h : (n.deliver f).inbox.frames.overwritten = 0) : n.inbox.frames.items.length < n.inbox.frames.depth := by
  rw [Node.deliver, Inbox.deliver_frames] at h
  exact Mailbox.lt_of_overwritten_push hends h

/-- A node hears some more noise. -/
theorem Disturbed.deliver_of_isNoise (h : calm.Disturbed noise n) {f : Frame} (hends : 0 < n.inbox.frames.receivers)
    (hnoise : n.rules.isNoise f = true) (hroom : n.inbox.frames.items.length < n.inbox.frames.depth) :
    calm.Disturbed (noise + 1) (n.deliver f) := by
  obtain ⟨k, hcount, htwin⟩ := h
  have hitems := items_deliver hends hroom f
  refine ⟨k, ?_, ?_⟩
  · change k + (n.deliver f).inbox.frames.items.countP n.rules.isNoise = noise + 1
    rw [hitems, List.countP_append, List.countP_singleton, if_pos hnoise, ← Nat.add_assoc, hcount]
  · rw [hushed_deliver_of_isNoise hends hnoise hroom, htwin, booked_booked]
    rfl

/-- What a node is handed does not depend on its books, apart from the signals that coalesced. -/
theorem deliver_booked (n : Node) (extra : Counters) (coalesced later : Nat) (f : Frame) :
    ((n.booked extra coalesced).deliver f).booked {} later = (n.deliver f).booked extra later := by
  rcases hsend : n.inbox.frames.send f with ⟨stored, frames⟩
  cases stored <;> simp only [Node.deliver, Inbox.deliver, booked, hsend] <;> rfl

/-- The same holds of an intent. -/
theorem submit_booked (n : Node) (extra : Counters) (coalesced later : Nat) (i : Intent) :
    ((n.booked extra coalesced).submit i).booked {} later = (n.submit i).booked extra later := by
  rcases hsend : n.inbox.intents.send i with ⟨stored, intents⟩
  cases stored <;> simp only [Node.submit, Inbox.submit, booked, hsend] <;> rfl

/-- Both nodes are handed a frame that can be read. -/
theorem Disturbed.deliver (h : calm.Disturbed noise n) {f : Frame} (hends : 0 < n.inbox.frames.receivers)
    (hlegible : n.rules.isNoise f = false) (hroom : n.inbox.frames.items.length < n.inbox.frames.depth) :
    (calm.deliver f).Disturbed noise (n.deliver f) := by
  obtain ⟨k, hcount, htwin⟩ := h
  have hitems := items_deliver hends hroom f
  have hends' : calm.inbox.frames.receivers = n.inbox.frames.receivers :=
    (congrArg (fun n : Node => n.inbox.frames.receivers) htwin).symm
  have hannounced : (calm.deliver f).inbox.signals.isSet .messageArrived = true := by
    rw [Node.deliver, Inbox.deliver_eq (hends' ▸ hends)]
    exact calm.inbox.signals.isSet_put_self .messageArrived true
  refine ⟨k, ?_, ?_⟩
  · change k + (n.deliver f).inbox.frames.items.countP n.rules.isNoise = noise
    rw [hitems, List.countP_append, List.countP_singleton, if_neg (by simp [hlegible]), Nat.add_zero, hcount]
  · rw [hannounced, hushed_deliver hends hlegible hroom (calm.inbox.signals.isSet .messageArrived), htwin,
      deliver_booked]

/-- Both nodes are handed an intent. -/
theorem Disturbed.submit (h : calm.Disturbed noise n) (i : Intent) :
    (calm.submit i).Disturbed noise (n.submit i) := by
  obtain ⟨k, hcount, htwin⟩ := h
  have hannounced : (calm.submit i).inbox.signals.isSet .messageArrived =
      calm.inbox.signals.isSet .messageArrived := calm.inbox.isSet_submit_of_ne i nofun
  refine ⟨k, ?_, ?_⟩
  · change k + (n.inbox.submit i).2.frames.items.countP n.rules.isNoise = noise
    rw [n.inbox.submit_frames, hcount]
  · rw [hannounced, hushed_submit, htwin, submit_booked]

/-- Both nodes are handed a confirmation. -/
theorem Disturbed.confirm (h : calm.Disturbed noise n) : calm.confirm.Disturbed noise n.confirm := by
  obtain ⟨k, hcount, htwin⟩ := h
  have hannounced : calm.confirm.inbox.signals.isSet .messageArrived =
      calm.inbox.signals.isSet .messageArrived := rfl
  refine ⟨k, hcount, ?_⟩
  rw [hannounced, hushed_confirm, htwin]
  rfl

/-- Both nodes take a step, and leave the same behind. -/
theorem Disturbed.step (h : calm.Disturbed noise n) {delivered heard : Nat} (hmail : n.Accounts delivered)
    (hcalm : calm.Accounts heard) (takes : Nat → Bool) :
    (calm.step now takes).1.Disturbed noise (n.step now takes).1 ∧
      (n.step now takes).2 = (calm.step now takes).2 := by
  have hframes := h.frames
  obtain ⟨k, hcount, htwin⟩ := h
  have hstep := step_hushed now hmail.loud (fun hrest => hcalm.announced.mpr (hframes ▸ hrest)) takes
  rw [htwin, step_booked, booked_booked, Counters.rejected_plus, hcount] at hstep
  have hnone := hmail.step_frames now takes
  refine ⟨⟨noise, ?_, ?_⟩, ?_⟩
  · rw [hnone, List.countP_nil, Nat.add_zero]
  · rw [step_announced, hushed_of_empty hnone (n.step_announced now takes), hstep]
    rfl
  · rw [hstep]

/-- Both nodes undergo the same, and leave the same behind. -/
theorem Disturbed.undergo (h : calm.Disturbed noise n) {delivered heard : Nat} (hmail : n.Accounts delivered)
    (hcalm : calm.Accounts heard) {e : Happening} (hlegible : e.isNoise n.rules = false)
    (hroomy : (n.undergo e).inbox.frames.overwritten = 0) :
    (calm.undergo e).Disturbed noise (n.undergo e) ∧ n.outcome? e = calm.outcome? e := by
  cases e with
  | deliver f =>
    have hends := hmail.sound.connected
    exact ⟨h.deliver hends hlegible (lt_of_overwritten_deliver hends hroomy), rfl⟩
  | submit i => exact ⟨h.submit i, rfl⟩
  | confirm => exact ⟨h.confirm, rfl⟩
  | step now takes =>
    obtain ⟨htwin, houtcome⟩ := h.step now hmail hcalm takes
    exact ⟨htwin, congrArg some houtcome⟩

/-- Where no frame has had to go by now, none had to go before. -/
theorem overwritten_of_undergo {e : Happening} (h : (n.undergo e).inbox.frames.overwritten = 0) :
    n.inbox.frames.overwritten = 0 := by
  cases e with
  | deliver f =>
    rw [undergo, deliver, Inbox.deliver_frames] at h
    exact Nat.eq_zero_of_le_zero (h ▸ n.inbox.frames.overwritten_le_push f)
  | submit i =>
    rw [undergo, submit, Inbox.submit_frames] at h
    exact h
  | confirm => exact h
  | step now takes => exact (n.step_overwritten now takes).symm.trans h

/-- Once the inbox has been read, nothing but the counts tells of the noise. -/
theorem Disturbed.of_empty (h : calm.Disturbed noise n) {delivered heard : Nat} (hmail : n.Accounts delivered)
    (hcalm : calm.Accounts heard) (hnone : n.inbox.frames.items = []) :
    n = calm.booked (.rejected noise) n.inbox.coalesced := by
  have hframes := h.frames
  obtain ⟨k, hcount, htwin⟩ := h
  rw [hnone, List.filter_nil] at hframes
  have hsilent : n.inbox.signals.isSet .messageArrived = false :=
    Bool.eq_false_iff.mpr fun hset => hmail.announced.mp hset hnone
  have hcalm' : calm.inbox.signals.isSet .messageArrived = false :=
    Bool.eq_false_iff.mpr fun hset => hcalm.announced.mp hset hframes.symm
  rw [hnone, List.countP_nil, Nat.add_zero] at hcount
  rw [hcalm', hushed_of_empty hnone hsilent, hcount] at htwin
  exact htwin

/-- A life in which no frame had to go is the life without the noise, and leaves the same behind. -/
theorem live_disturbed (r : Rules) (id : NodeId) {past : List Happening}
    (hroomy : ((fresh r id).live past).inbox.frames.overwritten = 0) :
    ((fresh r id).live (past.filter (!·.isNoise r))).Disturbed (past.countP (·.isNoise r)) ((fresh r id).live past) ∧
      (fresh r id).outcomes past = (fresh r id).outcomes (past.filter (!·.isNoise r)) := by
  induction past using List.reverseRecOn with
  | nil => exact ⟨⟨0, rfl, hushed_of_empty rfl rfl⟩, rfl⟩
  | append_singleton past e ih =>
    have hrules : ((fresh r id).live past).rules = r := ((fresh r id).live_sameMake past).rules
    rw [live_concat] at hroomy ⊢
    obtain ⟨htwin, houtcomes⟩ := ih (overwritten_of_undergo hroomy)
    rw [outcomes_concat, houtcomes, List.filter_append, List.countP_append, List.countP_singleton]
    cases hnoise : e.isNoise r with
    | true =>
      cases e with
      | deliver f =>
        rw [List.filter_cons_of_neg (by simp [hnoise]), List.filter_nil, List.append_nil]
        have hends := (connected_live r id past).frames
        exact ⟨htwin.deliver_of_isNoise hends (hrules.symm ▸ hnoise) (lt_of_overwritten_deliver hends hroomy),
          List.append_nil _⟩
      | submit | confirm | step => cases hnoise
    | false =>
      obtain ⟨hnext, houtcome⟩ := htwin.undergo ((accounts_fresh r id).live past) ((accounts_fresh r id).live _)
        (hrules.symm ▸ hnoise) hroomy
      rw [List.filter_cons_of_pos (by simp [hnoise]), List.filter_nil, live_concat, outcomes_concat, houtcome]
      exact ⟨hnext, rfl⟩

/-- Frames that cannot be read are inert. Whatever is in the inbox of a node, its step is the step on the batch
without the noise, whether or not the rest is still announced where nothing is left: it leaves the same node behind
and does the same, and only the frames received and those dropped are more, by the frames that cannot be read. And a
life in which no frame had to go does, step after step, what the life without the noise does. The node is then the
same but for the noise that is still in its inbox, the noise that has been counted and the count of signals raised in
vain; once its inbox has been read nothing is different but the counts. -/
theorem noise_inert {id : NodeId} {r : Rules} {new : Node} (hnew : ofRules id r = .ok new) (past : List Happening) :
    let n := new.live past
    (∀ now takes announced, (n.inbox.frames.items.filter (!r.isNoise ·) ≠ [] → announced = true) →
      n.step now takes =
        (((n.hushed announced).step now takes).1.booked (.rejected (n.inbox.frames.items.countP r.isNoise))
          n.inbox.coalesced, ((n.hushed announced).step now takes).2)) ∧
      (n.inbox.frames.overwritten = 0 →
        let calm := new.live (past.filter (!·.isNoise r))
        let noise := past.countP (·.isNoise r)
        new.outcomes past = new.outcomes (past.filter (!·.isNoise r)) ∧ calm.Disturbed noise n ∧
          (n.inbox.frames.items = [] → n = calm.booked (.rejected noise) n.inbox.coalesced)) := by
  obtain ⟨-, -, rfl⟩ := ofRules_eq_ok_iff.mp hnew
  intro n
  have hrules : n.rules = r := ((fresh r id).live_sameMake past).rules
  have hmail := (accounts_fresh r id).live past
  refine ⟨fun now takes announced hrest => ?_, fun hroomy => ?_⟩
  · rw [← hrules] at hrest ⊢
    exact step_hushed now hmail.loud hrest takes
  · obtain ⟨htwin, houtcomes⟩ := live_disturbed r id hroomy
    exact ⟨houtcomes, htwin, htwin.of_empty hmail ((accounts_fresh r id).live _)⟩

/-- A host hears a visitor that wants to register among two frames that cannot be read. -/
theorem noise_inert_crossTalk :
    let new := fresh .brisk ⟨1⟩
    let request : Happening := .deliver ⟨⟨41⟩, Wire.encode .registerRequest, -50, 8⟩
    let past := [.deliver ⟨⟨40⟩, [255, 7], -50, 8⟩, request, .deliver ⟨⟨200⟩, [], -50, 8⟩]
    let step : Happening := .step ⟨10⟩ fun _ => true
    let n := new.live past
    let takes : Nat → Bool := fun _ => true
    n.step ⟨10⟩ takes =
        (((n.hushed true).step ⟨10⟩ takes).1.booked (.rejected 2) 2, ((n.hushed true).step ⟨10⟩ takes).2) ∧
      new.live (past ++ [step]) = (new.live [request, step]).booked (.rejected 2) 2 ∧
      new.outcomes (past ++ [step]) = new.outcomes [request, step] ∧
      (new.messages (past ++ [step])).filter (·.1 = ⟨41⟩) = [(⟨41⟩, .registerResponse true .success)] := by
  intro new request past step n takes
  have hnew : ofRules ⟨1⟩ .brisk = .ok new := ofRules_eq_ok_iff.mpr ⟨by decide, by decide, rfl⟩
  have hcalm : (past ++ [step]).filter (!·.isNoise .brisk) = [request, step] := rfl
  have hbatch := (noise_inert hnew past).1 ⟨10⟩ takes true fun _ => rfl
  obtain ⟨houtcomes, -, htwin⟩ := (noise_inert hnew (past ++ [step])).2 (by decide +kernel)
  have htwin' := htwin (by decide +kernel)
  have hnoise : (new.live past).inbox.frames.items.countP (Rules.isNoise .brisk) = 2 := by decide +kernel
  have hraised : (new.live past).inbox.coalesced = 2 := by decide +kernel
  have hraised' : (new.live (past ++ [step])).inbox.coalesced = 2 := by decide +kernel
  rw [hnoise, hraised] at hbatch
  rw [hcalm] at houtcomes htwin'
  rw [hraised'] at htwin'
  exact ⟨hbatch, htwin', houtcomes, by decide +kernel⟩

end Node

end BoothFloor
