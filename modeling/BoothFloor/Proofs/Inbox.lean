import BoothFloor.Proofs.Action
import BoothFloor.Proofs.Mailbox

/-!
# The mail of a node

The machine of a node and its timers deal with two signals, those of the timers; the mail and the
other three signals belong to the producers. Two states of an inbox of which that holds are
`Inbox.SameMail`, and `Inbox.afterTurn` is what a turn leaves of an inbox: the frames and intents that
were announced are gone, and nothing is announced any more.
-/

namespace BoothFloor

/-- Polling one timer concerns no signal but its own. -/
theorem Timers.isSet_pollOne (k : TimerKind) (now : Instant) (t : Timers) (s : Signals) (g : Signal)
    (hg : g ≠ k.signal) : (pollOne k now t s).2.isSet g = s.isSet g := by
  unfold pollOne
  split
  · simp [Signals.isSet_raise, hg]
  · rfl

/-- Polling the timers concerns no signal of others. -/
theorem Timers.isSet_poll (now : Instant) (t : Timers) (s : Signals) {g : Signal}
    (hg : g.isExternal = true) : (poll now t s).2.isSet g = s.isSet g := by
  have hne (k : TimerKind) : g ≠ k.signal := (k.signal_ne_of_isExternal hg).symm
  unfold poll
  dsimp only
  rw [isSet_pollOne _ _ _ _ _ (hne _), isSet_pollOne _ _ _ _ _ (hne _)]

/-- Polling the timers has no regard to the signals of others. -/
theorem Timers.poll_put (now : Instant) (t : Timers) (s : Signals) {g : Signal} (hg : g.isExternal = true)
    (v : Bool) : poll now t (s.put g v) = ((poll now t s).1, (poll now t s).2.put g v) := by
  have hone (k : TimerKind) (t : Timers) (s : Signals) :
      pollOne k now t (s.put g v) = ((pollOne k now t s).1, (pollOne k now t s).2.put g v) := by
    unfold pollOne
    split
    · rw [Signals.raise, Signals.put_comm s (k.signal_ne_of_isExternal hg).symm]
      rfl
    · rfl
  simp only [poll, hone]

/-- Two states of an inbox that differ in the signals of the timers at most. -/
structure Inbox.SameMail (a b : Inbox) : Prop where
  frames : b.frames = a.frames
  intents : b.intents = a.intents
  signals : ∀ g : Signal, g.isExternal = true → b.signals.isSet g = a.signals.isSet g
  coalesced : b.coalesced = a.coalesced

/-- An inbox differs from itself in nothing. -/
theorem Inbox.SameMail.refl (a : Inbox) : a.SameMail a := ⟨rfl, rfl, fun _ _ => rfl, rfl⟩

/-- Inboxes can be compared across a third one. -/
theorem Inbox.SameMail.trans {a b c : Inbox} (hab : a.SameMail b) (hbc : b.SameMail c) : a.SameMail c :=
  ⟨hbc.frames.trans hab.frames, hbc.intents.trans hab.intents,
    fun g hg => (hbc.signals g hg).trans (hab.signals g hg), hbc.coalesced.trans hab.coalesced⟩

namespace Inbox

/-- Each mailbox of the inbox has a receiving end. -/
structure Connected (b : Inbox) : Prop where
  frames : 0 < b.frames.receivers
  intents : 0 < b.intents.receivers

/-- A frame that is handed in goes to the mailbox, whatever the answer. -/
theorem deliver_frames (b : Inbox) (f : Frame) : (b.deliver f).2.frames = b.frames.push f := by
  unfold deliver
  dsimp only
  split <;> rfl

/-- A frame that is handed in concerns the intents in nothing. -/
theorem deliver_intents (b : Inbox) (f : Frame) : (b.deliver f).2.intents = b.intents := by
  unfold deliver
  dsimp only
  split <;> rfl

/-- An intent that is handed in goes to the mailbox, whatever the answer. -/
theorem submit_intents (b : Inbox) (i : Intent) : (b.submit i).2.intents = b.intents.push i := by
  unfold submit
  dsimp only
  split <;> rfl

/-- An intent that is handed in concerns the frames in nothing. -/
theorem submit_frames (b : Inbox) (i : Intent) : (b.submit i).2.frames = b.frames := by
  unfold submit
  dsimp only
  split <;> rfl

/-- While a receiving end is left, a frame that is handed in is stored and announced. -/
theorem deliver_eq {b : Inbox} (hends : 0 < b.frames.receivers) (f : Frame) :
    b.deliver f = (true, { b with frames := b.frames.push f }.raise .messageArrived) := by
  have hstored : (b.frames.send f).1 = true := by rw [Mailbox.send_fst, decide_eq_true hends]
  simp only [deliver, hstored, if_true]
  rfl

/-- While a receiving end is left, an intent that is handed in is stored and announced. -/
theorem submit_eq {b : Inbox} (hends : 0 < b.intents.receivers) (i : Intent) :
    b.submit i = (true, { b with intents := b.intents.push i }.raise .keyboardIntent) := by
  have hstored : (b.intents.send i).1 = true := by rw [Mailbox.send_fst, decide_eq_true hends]
  simp only [submit, hstored, if_true]
  rfl

/-- A frame that is handed in concerns no signal but the one that announces it. -/
theorem isSet_deliver_of_ne (b : Inbox) (f : Frame) {g : Signal} (hg : g ≠ .messageArrived) :
    (b.deliver f).2.signals.isSet g = b.signals.isSet g := by
  unfold deliver
  dsimp only
  split
  · simp [raise, Signals.isSet_raise, hg]
  · rfl

/-- An intent that is handed in concerns no signal but the one that announces it. -/
theorem isSet_submit_of_ne (b : Inbox) (i : Intent) {g : Signal} (hg : g ≠ .keyboardIntent) :
    (b.submit i).2.signals.isSet g = b.signals.isSet g := by
  unfold submit
  dsimp only
  split
  · simp [raise, Signals.isSet_raise, hg]
  · rfl

/-- The inbox once its frames have been read, if they were announced. -/
def afterFrames (b : Inbox) : Inbox :=
  if b.signals.isSet .messageArrived then (b.clear .messageArrived).drainFrames.2 else b

/-- The inbox once its intents have been handled, if they were announced. -/
def afterIntents (b : Inbox) : Inbox :=
  if b.signals.isSet .keyboardIntent then (b.clear .keyboardIntent).drainIntents.2 else b

/-- The inbox after a turn. -/
def afterTurn (b : Inbox) : Inbox := b.afterFrames.afterIntents.clear .sendConfirmed

variable {a b : Inbox}

/-- Clearing a signal keeps the mail the same. -/
theorem SameMail.clear (h : a.SameMail b) (g : Signal) : (a.clear g).SameMail (b.clear g) := by
  refine ⟨h.frames, h.intents, fun g' hg' => ?_, h.coalesced⟩
  simp only [Inbox.clear, Signals.isSet_clear, h.signals g' hg']

/-- A turn takes out the frames that were announced, and none else. -/
theorem afterTurn_frames (b : Inbox) : b.afterTurn.frames =
    if b.signals.isSet .messageArrived then { b.frames with items := [] } else b.frames := by
  unfold afterTurn afterFrames afterIntents
  split
  · split <;> rfl
  · split <;> rfl

/-- Reading the frames leaves the intents alone. -/
theorem afterFrames_intents (b : Inbox) : b.afterFrames.intents = b.intents := by
  unfold afterFrames
  split <;> rfl

/-- Reading the frames does not make the intents less announced. -/
theorem afterFrames_keyboardIntent (b : Inbox) :
    b.afterFrames.signals.isSet .keyboardIntent = b.signals.isSet .keyboardIntent := by
  unfold afterFrames
  split
  · simp [clear, drainFrames, Signals.isSet_clear]
  · rfl

/-- A turn takes out the intents that were announced, and none else. -/
theorem afterTurn_intents (b : Inbox) : b.afterTurn.intents =
    if b.signals.isSet .keyboardIntent then { b.intents with items := [] } else b.intents := by
  unfold afterTurn afterIntents
  rw [afterFrames_keyboardIntent]
  split
  · exact congrArg (fun m : Mailbox Intent => m.drain.2) b.afterFrames_intents
  · exact b.afterFrames_intents

/-- After a turn nothing is announced any more. -/
theorem afterTurn_signals (b : Inbox) {g : Signal} (hg : g.isExternal = true) :
    b.afterTurn.signals.isSet g = false := by
  have hframes : b.afterFrames.signals.isSet .messageArrived = false := by
    unfold afterFrames
    split
    · simp [clear, drainFrames, Signals.isSet_clear]
    · simp_all
  unfold afterTurn afterIntents
  cases g with
  | selectionTimeout | retryTimeout => cases hg
  | sendConfirmed => simp [clear, Signals.isSet_clear]
  | messageArrived =>
    split <;> simp [clear, drainIntents, Signals.isSet_clear, hframes]
  | keyboardIntent =>
    split
    · simp [clear, drainIntents, Signals.isSet_clear]
    · next h => simp [clear, Signals.isSet_clear, h]

end Inbox

end BoothFloor
