import BoothFloor.Proofs.Node.Turn

/-!
# The books of a node

A node counts what it does, and its inbox counts the signals that were raised in vain. What a node does depends on
none of these counts: the turn of a node with other books is the same turn, and its books differ as they did before.
-/

namespace BoothFloor

namespace Counters

/-- The counts of two rows added up. -/
def plus (c d : Counters) : Counters where
  ticks := c.ticks + d.ticks
  framesReceived := c.framesReceived + d.framesReceived
  framesDropped := c.framesDropped + d.framesDropped
  messagesSent := c.messagesSent + d.messagesSent
  sendFailures := c.sendFailures + d.sendFailures
  sendConfirmations := c.sendConfirmations + d.sendConfirmations

/-- Counts can be added in any grouping. -/
theorem plus_assoc (c d e : Counters) : (c.plus d).plus e = c.plus (d.plus e) := by
  simp only [plus, Nat.add_assoc]

/-- What is added last can be added first. -/
theorem plus_right_comm (c d e : Counters) : (c.plus d).plus e = (c.plus e).plus d := by
  simp only [plus, Nat.add_right_comm]

end Counters

/-- A node that has counted `extra` besides and whose inbox has counted `coalesced` signals that were raised in
vain. -/
def Node.booked (n : Node) (extra : Counters) (coalesced : Nat) : Node :=
  { n with counters := n.counters.plus extra, inbox := { n.inbox with coalesced := coalesced } }

/-- A node with corrected books can have them corrected again. -/
theorem Node.booked_booked (n : Node) (first second : Counters) (coalesced later : Nat) :
    (n.booked first coalesced).booked second later = n.booked (first.plus second) later := by
  simp only [booked, Counters.plus_assoc]

namespace Turn

/-- A turn of a node with other books. -/
def booked (t : Turn) (extra : Counters) (coalesced : Nat) : Turn := { t with node := t.node.booked extra coalesced }

/-- A turn with corrected books can have them corrected again. -/
theorem booked_booked (t : Turn) (first second : Counters) (coalesced later : Nat) :
    (t.booked first coalesced).booked second later = t.booked (first.plus second) later := by
  simp only [booked, Node.booked_booked]

variable {f : Counters → Counters} {g : Signal} (t : Turn) (extra : Counters) (coalesced : Nat)

/-- The machine reacts without regard to the books. -/
theorem feed_booked (i : Input) : (t.booked extra coalesced).feed i = (t.feed i).booked extra coalesced := rfl

/-- Counting on goes on from any books. -/
theorem counting_booked (hf : ∀ c : Counters, f (c.plus extra) = (f c).plus extra) :
    (t.booked extra coalesced).counting f = (t.counting f).booked extra coalesced := by
  simp only [counting, booked, Node.booked, hf]

/-- Acting on a signal has no regard to the books if the act has none. -/
theorem onSignal_booked {act : Turn → Turn}
    (hact : ∀ t : Turn, act (t.booked extra coalesced) = (act t).booked extra coalesced) :
    (t.booked extra coalesced).onSignal g act = (t.onSignal g act).booked extra coalesced := by
  unfold onSignal
  change (if t.node.inbox.signals.isSet g then _ else _) = _
  split
  · exact hact { t with node := { t.node with inbox := t.node.inbox.clear g } }
  · rfl

/-- A row of acts has no regard to the books if none of them has. -/
theorem foldl_booked {α : Type} (act : Turn → α → Turn)
    (hact : ∀ (t : Turn) (a : α), act (t.booked extra coalesced) a = (act t a).booked extra coalesced) (l : List α) :
    l.foldl act (t.booked extra coalesced) = (l.foldl act t).booked extra coalesced := by
  induction l generalizing t with
  | nil => rfl
  | cons a rest ih => rw [List.foldl_cons, List.foldl_cons, hact, ih]

/-- A frame is read without regard to the books. -/
theorem readFrame_booked (f : Frame) :
    (t.booked extra coalesced).readFrame f = (t.readFrame f).booked extra coalesced := by
  have hcounted := t.counting_booked (f := countFrame) extra coalesced fun c =>
    c.plus_right_comm extra { framesReceived := 1 }
  have hdropped (t : Turn) := t.counting_booked (f := countDrop) extra coalesced fun c =>
    c.plus_right_comm extra { framesDropped := 1 }
  have hrules : (t.booked extra coalesced).node.rules = t.node.rules := rfl
  rw [readFrame_eq, readFrame_eq, hcounted, hrules]
  cases t.node.rules.hear f with
  | some i => exact feed_booked _ extra coalesced i
  | none => exact hdropped _

/-- The frames are read without regard to the books. -/
theorem readFrames_booked : (t.booked extra coalesced).readFrames = t.readFrames.booked extra coalesced :=
  foldl_booked { t with node := { t.node with inbox := t.node.inbox.drainFrames.2 } } extra coalesced readFrame
    (fun t f => t.readFrame_booked extra coalesced f) t.node.inbox.frames.items

/-- The intents are handled without regard to the books. -/
theorem readIntents_booked : (t.booked extra coalesced).readIntents = t.readIntents.booked extra coalesced :=
  foldl_booked { t with node := { t.node with inbox := t.node.inbox.drainIntents.2 } } extra coalesced
    (fun t i => t.feed (.intent i)) (fun t i => t.feed_booked extra coalesced (.intent i)) t.node.inbox.intents.items

/-- A node starts without regard to the books. -/
theorem begin_booked : (t.booked extra coalesced).begin = t.begin.booked extra coalesced := by
  unfold begin
  change (if t.node.started then _ else _) = _
  split <;> rfl

/-- The timers are polled without regard to the books. -/
theorem pollTimers_booked : (t.booked extra coalesced).pollTimers = t.pollTimers.booked extra coalesced := rfl

/-- A timeout is handled without regard to the books. -/
theorem onTimer_booked (k : TimerKind) : (t.booked extra coalesced).onSignal g (·.feed (.timer k)) =
    (t.onSignal g (·.feed (.timer k))).booked extra coalesced :=
  t.onSignal_booked extra coalesced fun t => t.feed_booked extra coalesced (.timer k)

/-- What is left of a turn once the frames have been read. -/
def finish (t : Turn) : Turn :=
  let selected := t.onSignal .selectionTimeout (·.feed (.timer .selection))
  let retried := selected.onSignal .retryTimeout (·.feed (.timer .retry))
  let intended := retried.onSignal .keyboardIntent readIntents
  (intended.onSignal .sendConfirmed (counting countConfirmation)).feed .tick

/-- A turn is finished without regard to the books. -/
theorem finish_booked : (t.booked extra coalesced).finish = t.finish.booked extra coalesced := by
  have hintended (t : Turn) := t.onSignal_booked (g := .keyboardIntent) extra coalesced fun t =>
    t.readIntents_booked extra coalesced
  have hconfirmed (t : Turn) := t.onSignal_booked (g := .sendConfirmed) extra coalesced fun t =>
    t.counting_booked (f := countConfirmation) extra coalesced fun c =>
      c.plus_right_comm extra { sendConfirmations := 1 }
  simp only [finish, onTimer_booked, hintended, hconfirmed, feed_booked]

end Turn

namespace Node

variable (n : Node) (extra : Counters) (coalesced : Nat) (now : Instant)

/-- A turn is finished once the frames have been read. -/
theorem turn_eq_finish : n.turn now = (n.read now).finish := rfl

/-- A turn before anything has been done. -/
def woken (n : Node) (now : Instant) : Turn := { node := { n with now := now, tick := n.tick + 1 } }

/-- A node that has woken up starts, counts the tick and polls its timers. -/
theorem polled_eq : n.polled now = (((n.woken now).begin).counting Turn.countTick).pollTimers := rfl

/-- A node wakes up and polls its timers without regard to its books. -/
theorem polled_booked : (n.booked extra coalesced).polled now = (n.polled now).booked extra coalesced := by
  have hbegin : ((n.booked extra coalesced).woken now).begin = ((n.woken now).begin).booked extra coalesced :=
    (n.woken now).begin_booked extra coalesced
  rw [polled_eq, polled_eq, hbegin, Turn.counting_booked _ extra coalesced fun c =>
    c.plus_right_comm extra { ticks := 1 }, Turn.pollTimers_booked]

/-- The turn of a node with other books is the same turn with other books. -/
theorem turn_booked : (n.booked extra coalesced).turn now = (n.turn now).booked extra coalesced := by
  rw [turn_eq_finish, turn_eq_finish, read, read, polled_booked,
    Turn.onSignal_booked _ extra coalesced fun t => t.readFrames_booked extra coalesced, Turn.finish_booked]

/-- The counts of a turn's messages are added to what has been counted before. -/
theorem countSends_eq_plus (sent : List Dispatch) (c : Counters) :
    countSends sent c = c.plus
      { messagesSent := sent.countP (·.taken), sendFailures := sent.length - sent.countP (·.taken) } := rfl

variable {n} in
/-- Steps whose turns differ in the books do so too, and leave the same behind. -/
theorem step_of_turn_booked {n' : Node} (hturn : n.turn now = (n'.turn now).booked extra coalesced)
    (takes : Nat → Bool) :
    n.step now takes = ((n'.step now takes).1.booked extra coalesced, (n'.step now takes).2) := by
  simp only [step, hturn]
  simp only [Turn.booked, booked, countSends_eq_plus, Counters.plus_right_comm]

/-- The step of a node with other books is the same step with other books, and leaves the same behind. -/
theorem step_booked (takes : Nat → Bool) : (n.booked extra coalesced).step now takes =
    ((n.step now takes).1.booked extra coalesced, (n.step now takes).2) :=
  step_of_turn_booked _ _ _ (n.turn_booked extra coalesced now) takes

end Node

end BoothFloor
