import BoothFloor.Proofs.Inbox

/-!
# What becomes of the mail

An inbox is called from outside, in any order: to hand in frames and intents, to confirm, to ask for a signal and
to take the mail out. Between two calls that take the frames out, the latest frames are kept, as many as there is
room for, and the others are counted, and so it is with the intents. Whether a signal is pending is settled by the
last call that concerned it, and every call that raises it in vain is counted.
-/

namespace BoothFloor

namespace Inbox

/-- What can be asked of an inbox. -/
inductive Call where
  | deliver (f : Frame)
  | submit (i : Intent)
  | confirm
  /-- Ask whether a signal is pending, which clears it. -/
  | take (g : Signal)
  | drainFrames
  | drainIntents
  deriving DecidableEq

namespace Call

/-- The frame that a call hands in. -/
def frame? : Call → Option Frame
  | deliver f => some f
  | _ => none

/-- The intent that a call hands in. -/
def intent? : Call → Option Intent
  | submit i => some i
  | _ => none

/-- The signal that a call raises. -/
def raised? : Call → Option Signal
  | deliver _ => some .messageArrived
  | submit _ => some .keyboardIntent
  | confirm => some .sendConfirmed
  | _ => none

/-- Whether a signal is pending after a call that concerns it. -/
def settles? (g : Signal) (c : Call) : Option Bool :=
  if c.raised? = some g then some true else if c = take g then some false else none

/-- Whether a signal is pending after some calls: the last one that concerned it has raised it. -/
def pending (past : List Call) (g : Signal) : Bool := (past.reverse.findSome? (settles? g)).getD false

/-- How many of some calls have raised a signal that was pending already. -/
def repeats (past : List Call) : Nat :=
  (List.range past.length).countP fun k => past[k]?.any fun c => c.raised?.any (pending (past.take k))

/-- One more call is counted if it raises a signal that is pending. -/
theorem repeats_concat (past : List Call) (c : Call) :
    repeats (past ++ [c]) = repeats past + if c.raised?.any (pending past) then 1 else 0 := by
  have hearlier : ∀ k ∈ List.range past.length,
      ((past ++ [c])[k]?.any fun c' => c'.raised?.any (pending ((past ++ [c]).take k))) =
        past[k]?.any fun c' => c'.raised?.any (pending (past.take k)) := by
    intro k hk
    have hlt : k < past.length := List.mem_range.mp hk
    rw [List.getElem?_append_left hlt, List.take_append_of_le_length (Nat.le_of_lt hlt)]
  rw [repeats, List.length_append, List.length_singleton, List.range_succ, List.countP_append,
    List.countP_congr fun k hk => by rw [hearlier k hk], List.countP_singleton]
  simp [repeats]

end Call

/-- What a call leaves of an inbox. -/
def call (b : Inbox) : Call → Inbox
  | .deliver f => (b.deliver f).2
  | .submit i => (b.submit i).2
  | .confirm => b.confirm
  | .take g => b.clear g
  | .drainFrames => b.drainFrames.2
  | .drainIntents => b.drainIntents.2

/-- What some calls leave of an inbox. -/
def calls (b : Inbox) (row : List Call) : Inbox := row.foldl call b

/-- What some calls and one more leave of an inbox. -/
theorem calls_concat (b : Inbox) (past : List Call) (c : Call) : b.calls (past ++ [c]) = (b.calls past).call c := by
  rw [calls, List.foldl_append]
  rfl

section Lane

-- one of the two mailboxes, with the calls that take its entries out and those that hand one in
variable {α : Type} {lane : Inbox → Mailbox α} {drains : Call → Bool} {handed? : Call → Option α}
  (hserves : ∀ b c, lane (b.call c) = (lane b).serve (drains c) (handed? c))
  {b : Inbox} {row : List Call}

include hserves

/-- A mailbox stays sound and as deep as it was for a whole row of calls. -/
theorem sound_calls (hsound : (lane b).Sound) (row : List Call) :
    (lane (b.calls row)).Sound ∧ (lane (b.calls row)).depth = (lane b).depth := by
  induction row using List.reverseRecOn with
  | nil => exact ⟨hsound, rfl⟩
  | append_singleton past c ih =>
    obtain ⟨hlater, hdepth⟩ := ih
    rw [calls_concat, hserves]
    exact ⟨(hlater.serve _ _).1, (hlater.serve _ _).2.trans hdepth⟩

/-- While nothing is taken out, the entries of some calls are handed in one after another. -/
theorem lane_calls (hrow : ∀ c ∈ row, drains c = false) :
    lane (b.calls row) = (row.filterMap handed?).foldl Mailbox.push (lane b) := by
  induction row using List.reverseRecOn with
  | nil => rfl
  | append_singleton past c ih =>
    have hc : drains c = false := hrow c (by simp)
    rw [calls_concat, hserves, ih fun c hmem => hrow c (by simp [hmem]), hc, List.filterMap_append, List.foldl_append]
    cases hhanded : handed? c <;> simp [Mailbox.serve, hhanded]

/-- What was handed in since the entries were last taken out is kept as far as there is room. -/
theorem keeps_calls {before : List Call} (hsound : (lane b).Sound) (hempty : (lane b).items = [])
    (hbefore : ∀ c ∈ before.getLast?, drains c = true) (hrow : ∀ c ∈ row, drains c = false) :
    (lane (b.calls before)).Keeps (lane b).depth (row.filterMap handed?) (lane ((b.calls before).calls row)) := by
  obtain ⟨hlater, hdepth⟩ := sound_calls hserves hsound before
  have hitems : (lane (b.calls before)).items = [] := by
    induction before using List.reverseRecOn with
    | nil => exact hempty
    | append_singleton past c =>
      rw [calls_concat, hserves, hbefore c (by simp)]
      rfl
  rw [lane_calls hserves hrow, ← hdepth]
  exact hlater.keeps hitems _

end Lane

/-- What a call makes of the frames. -/
theorem frames_call (b : Inbox) (c : Call) :
    (b.call c).frames = b.frames.serve (decide (c = .drainFrames)) c.frame? := by
  cases c with
  | deliver f => exact b.deliver_frames f
  | submit i => exact b.submit_frames i
  | _ => rfl

/-- What a call makes of the intents. -/
theorem intents_call (b : Inbox) (c : Call) :
    (b.call c).intents = b.intents.serve (decide (c = .drainIntents)) c.intent? := by
  cases c with
  | deliver f => exact b.deliver_intents f
  | submit i => exact b.submit_intents i
  | _ => rfl

/-- An inbox that has just been opened keeps its receiving ends, whatever it is called for. -/
theorem connected_calls (frameDepth intentDepth : Nat) (past : List Call) :
    ((empty frameDepth intentDepth).calls past).Connected where
  frames := (sound_calls frames_call (b := empty frameDepth intentDepth) (Mailbox.sound_empty _) past).1.connected
  intents := (sound_calls intents_call (b := empty frameDepth intentDepth) (Mailbox.sound_empty _) past).1.connected

variable {b : Inbox}

/-- A call that settles a signal leaves it so, and any other one leaves it alone. -/
theorem isSet_call (hconnected : b.Connected) (c : Call) (g : Signal) :
    (b.call c).signals.isSet g = (c.settles? g).getD (b.signals.isSet g) := by
  cases c with
  | take h =>
    change (b.signals.clear h).isSet g = _
    rw [Signals.isSet_clear, Call.settles?, if_neg nofun]
    by_cases heq : g = h
    · simp [heq]
    · simp [heq, Ne.symm heq]
  | deliver f =>
    rw [call, deliver_eq hconnected.frames]
    cases g <;> rfl
  | submit i =>
    rw [call, submit_eq hconnected.intents]
    cases g <;> rfl
  | _ => cases g <;> rfl

/-- A call is counted if it has raised a signal that was pending already. -/
theorem coalesced_call (hconnected : b.Connected) (c : Call) :
    (b.call c).coalesced = b.coalesced + if c.raised?.any b.signals.isSet then 1 else 0 := by
  have hraise (b : Inbox) (g : Signal) :
      (b.raise g).coalesced = b.coalesced + if b.signals.isSet g then 1 else 0 := by
    unfold raise
    split <;> rfl
  cases c with
  | deliver f =>
    rw [call, deliver_eq hconnected.frames]
    exact hraise _ _
  | submit i =>
    rw [call, submit_eq hconnected.intents]
    exact hraise _ _
  | confirm => exact hraise _ _
  | _ => rfl

/-- A signal is pending if the last call that concerned it has raised it. -/
theorem isSet_calls (frameDepth intentDepth : Nat) (past : List Call) (g : Signal) :
    ((empty frameDepth intentDepth).calls past).signals.isSet g = Call.pending past g := by
  induction past using List.reverseRecOn with
  | nil => cases g <;> rfl
  | append_singleton past c ih =>
    rw [calls_concat, isSet_call (connected_calls frameDepth intentDepth past), ih, Call.pending, Call.pending,
      List.reverse_append]
    cases hc : c.settles? g <;> simp [hc]

/-- The counter of an inbox says how many calls have raised a signal that was pending already. -/
theorem coalesced_calls (frameDepth intentDepth : Nat) (past : List Call) :
    ((empty frameDepth intentDepth).calls past).coalesced = Call.repeats past := by
  induction past using List.reverseRecOn with
  | nil => rfl
  | append_singleton past c ih =>
    have hsignals : ((empty frameDepth intentDepth).calls past).signals.isSet = Call.pending past :=
      funext (isSet_calls frameDepth intentDepth past)
    rw [calls_concat, coalesced_call (connected_calls frameDepth intentDepth past), ih, hsignals, Call.repeats_concat]

end Inbox

end BoothFloor
