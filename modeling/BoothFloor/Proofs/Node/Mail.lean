import BoothFloor.Proofs.Inbox.Calls
import BoothFloor.Proofs.Node.Counters
import BoothFloor.Proofs.Node.Life

/-!
# No frame goes missing

Every frame that is handed in to a node has been read, has had to go or is still there. A frame is announced as it
comes in, and a step that finds frames announced takes all of them out. So between the steps of a node frames are
announced exactly while there are any.
-/

namespace BoothFloor

/-- Whether a frame is handed in. -/
def Happening.isDelivery : Happening → Bool
  | deliver _ => true
  | _ => false

namespace Node

variable {n : Node} {delivered : Nat}

/-- Of the frames that were handed in some have been read, some had to go and some are there, and these are
announced. -/
structure Accounts (n : Node) (delivered : Nat) : Prop where
  sound : n.inbox.frames.Sound
  balance : delivered = n.counters.framesReceived + n.inbox.frames.overwritten + n.inbox.frames.items.length
  announced : n.inbox.signals.isSet .messageArrived = true ↔ n.inbox.frames.items ≠ []

/-- A node that has just been set up has had no frames. -/
theorem accounts_fresh (r : Rules) (id : NodeId) : (fresh r id).Accounts 0 where
  sound := Mailbox.sound_empty _
  balance := rfl
  announced := ⟨nofun, fun h => absurd rfl h⟩

/-- A frame that is handed in is there, and has taken the place of another one at most. -/
theorem Accounts.deliver (h : n.Accounts delivered) (f : Frame) : (n.deliver f).Accounts (delivered + 1) := by
  have hframes : (n.deliver f).inbox.frames = n.inbox.frames.push f := n.inbox.deliver_frames f
  have hlength := h.sound.length_push f
  constructor
  case sound => exact hframes ▸ h.sound.push f
  case balance =>
    have hcount := h.sound.overwritten_push f
    have hbalance := h.balance
    have hroom := h.sound.room
    change delivered + 1 = n.counters.framesReceived + (n.deliver f).inbox.frames.overwritten +
      (n.deliver f).inbox.frames.items.length
    rw [hframes]
    omega
  case announced =>
    have hdepth := h.sound.depth
    have hthere : (n.inbox.frames.push f).items ≠ [] := by
      intro hnone
      rw [hnone, List.length_nil] at hlength
      omega
    refine ⟨fun _ => hframes ▸ hthere, fun _ => ?_⟩
    change (n.inbox.deliver f).2.signals.isSet .messageArrived = true
    rw [Inbox.deliver_eq h.sound.connected]
    simp [Inbox.raise, Signals.isSet_raise]

/-- What is no frame is neither read nor put in the place of one. -/
theorem Accounts.of_eq (h : n.Accounts delivered) {later : Node} (hframes : later.inbox.frames = n.inbox.frames)
    (hcounters : later.counters = n.counters)
    (hsignal : later.inbox.signals.isSet .messageArrived = n.inbox.signals.isSet .messageArrived) :
    later.Accounts delivered where
  sound := hframes ▸ h.sound
  balance := by
    rw [hframes, hcounters]
    exact h.balance
  announced := by
    rw [hframes, hsignal]
    exact h.announced

/-- An intent is no frame. -/
theorem Accounts.submit (h : n.Accounts delivered) (i : Intent) : (n.submit i).Accounts delivered :=
  h.of_eq (n.inbox.submit_frames i) rfl (n.inbox.isSet_submit_of_ne i nofun)

/-- Frames are announced or none are there. -/
theorem Accounts.loud (h : n.Accounts delivered) :
    n.inbox.signals.isSet .messageArrived = true ∨ n.inbox.frames.items = [] := by
  by_cases hnone : n.inbox.frames.items = []
  · exact .inr hnone
  · exact .inl (h.announced.mpr hnone)

/-- After a step no frames are announced. -/
theorem step_announced (n : Node) (now : Instant) (takes : Nat → Bool) :
    (n.step now takes).1.inbox.signals.isSet .messageArrived = false :=
  ((n.turn_sameMail now).signals .messageArrived rfl).trans (n.inbox.afterTurn_signals rfl)

/-- A step reads all frames that are there. -/
theorem Accounts.step (h : n.Accounts delivered) (now : Instant) (takes : Nat → Bool) :
    (n.step now takes).1.Accounts delivered := by
  have hmail := n.turn_sameMail now
  have hframes : (n.step now takes).1.inbox.frames = n.inbox.afterTurn.frames := hmail.frames
  have hsilent := n.step_announced now takes
  have hreceived : (n.step now takes).1.counters.framesReceived = n.counters.framesReceived +
      if n.inbox.signals.isSet .messageArrived then n.inbox.frames.items.length else 0 := n.turn_framesReceived now
  have hbalance := h.balance
  rw [n.inbox.afterTurn_frames] at hframes
  cases hset : n.inbox.signals.isSet .messageArrived with
  | true =>
    rw [hset, if_pos rfl] at hframes hreceived
    constructor
    case sound => exact hframes ▸ h.sound.drain
    case balance =>
      rw [hframes, hreceived, List.length_nil]
      dsimp only
      omega
    case announced =>
      rw [hframes, hsilent]
      exact ⟨nofun, fun hthere => absurd rfl hthere⟩
  | false =>
    have hnone : n.inbox.frames.items = [] := h.loud.resolve_left (by simp [hset])
    rw [hset, if_neg Bool.false_ne_true] at hframes hreceived
    constructor
    case sound => exact hframes ▸ h.sound
    case balance => rw [hframes, hreceived, Nat.add_zero, ← hbalance]
    case announced =>
      rw [hframes, hsilent, hnone]
      exact ⟨nofun, fun hthere => absurd rfl hthere⟩

/-- After a step no frames are there. -/
theorem Accounts.step_frames (h : n.Accounts delivered) (now : Instant) (takes : Nat → Bool) :
    (n.step now takes).1.inbox.frames.items = [] := by
  by_contra hthere
  exact Bool.false_ne_true ((n.step_announced now takes).symm.trans ((h.step now takes).announced.mpr hthere))

/-- Whatever happens to a node, its frames are accounted for. -/
theorem Accounts.live (h : n.Accounts delivered) (past : List Happening) :
    (n.live past).Accounts (delivered + past.countP Happening.isDelivery) := by
  induction past generalizing n delivered with
  | nil => exact h
  | cons e rest ih =>
    have hnext : (n.undergo e).Accounts (delivered + if e.isDelivery then 1 else 0) := by
      cases e with
      | deliver f => exact h.deliver f
      | submit i => exact h.submit i
      | confirm => exact h.of_eq rfl rfl rfl
      | step now takes => exact h.step now takes
    rw [List.countP_cons, Nat.add_comm (rest.countP _), ← Nat.add_assoc]
    exact ih hnext

/-- An entry that is handed in is always stored, after making room for it once at most, and what has been handed in
since the entries were last taken out is kept as far as there is room; a signal is pending if the last call that
concerned it has raised it, and every other raise of it is counted. So all frames that a node was handed have been
read, have had to go or are still there, and after every step and every call they are announced if there are any. -/
theorem mail_accounted (frameDepth intentDepth : Nat) :
    (∀ past, let b := (Inbox.empty frameDepth intentDepth).calls past
      (∀ f, (b.deliver f).1 = true ∧
          ∃ gone ≤ 1, b.frames.overwrite f = some (true, gone, (b.deliver f).2.frames)) ∧
        (∀ i, (b.submit i).1 = true ∧
          ∃ gone ≤ 1, b.intents.overwrite i = some (true, gone, (b.submit i).2.intents)) ∧
        (∀ g, b.signals.isSet g = Inbox.Call.pending past g) ∧ b.coalesced = Inbox.Call.repeats past) ∧
      (∀ before between, let b := (Inbox.empty frameDepth intentDepth).calls before
        ((∀ c ∈ before.getLast?, c = .drainFrames) → .drainFrames ∉ between →
          b.frames.Keeps (max frameDepth 1) (between.filterMap Inbox.Call.frame?) (b.calls between).frames) ∧
        ((∀ c ∈ before.getLast?, c = .drainIntents) → .drainIntents ∉ between →
          b.intents.Keeps (max intentDepth 1) (between.filterMap Inbox.Call.intent?) (b.calls between).intents)) ∧
      ∀ id rules new, ofRules id rules = .ok new → ∀ past, let n := new.live past
        past.countP Happening.isDelivery =
            n.stats.counters.framesReceived + n.stats.framesOverwritten + n.inbox.frames.items.length ∧
          (n.inbox.signals.isSet .messageArrived = true ↔ n.inbox.frames.items ≠ []) := by
  have hframes : (Inbox.empty frameDepth intentDepth).frames.Sound := Mailbox.sound_empty _
  have hintents : (Inbox.empty frameDepth intentDepth).intents.Sound := Mailbox.sound_empty _
  refine ⟨fun past => ?_, fun before between => ⟨fun hbefore hbetween => ?_, fun hbefore hbetween => ?_⟩,
    fun id rules new hnew past => ?_⟩
  · have hroom {α : Type} {m : Mailbox α} (h : m.Sound) : m.items.length + 1 - m.depth ≤ 1 := by
      have := h.room
      omega
    have hframes' := (Inbox.sound_calls Inbox.frames_call hframes past).1
    have hintents' := (Inbox.sound_calls Inbox.intents_call hintents past).1
    refine ⟨fun f => ⟨hframes'.send_fst f, _, hroom hframes', ?_⟩,
      fun i => ⟨hintents'.send_fst i, _, hroom hintents', ?_⟩,
      Inbox.isSet_calls frameDepth intentDepth past, Inbox.coalesced_calls frameDepth intentDepth past⟩
    · rw [Inbox.deliver_frames, hframes'.overwrite_eq]
    · rw [Inbox.submit_intents, hintents'.overwrite_eq]
  · exact Inbox.keeps_calls Inbox.frames_call hframes rfl (fun c hc => decide_eq_true (hbefore c hc))
      fun c hc => decide_eq_false fun heq => hbetween (heq ▸ hc)
  · exact Inbox.keeps_calls Inbox.intents_call hintents rfl (fun c hc => decide_eq_true (hbefore c hc))
      fun c hc => decide_eq_false fun heq => hbetween (heq ▸ hc)
  · obtain ⟨-, -, rfl⟩ := ofRules_eq_ok_iff.mp hnew
    have haccounts := (accounts_fresh rules id).live past
    rw [Nat.zero_add] at haccounts
    exact ⟨haccounts.balance, haccounts.announced⟩

/-- A frame from a node, with nothing in it. -/
def blankFrame (source : UInt8) : Frame := ⟨⟨source⟩, [], -50, 8⟩

/-- An inbox with room for one frame is handed three of them since the first one was taken out, and a node with the
same room is handed two before its step and one after it. -/
theorem mail_accounted_oneSlot :
    let between : List Inbox.Call :=
      [.deliver (blankFrame 2), .deliver (blankFrame 3), .confirm, .take .messageArrived, .deliver (blankFrame 4)]
    let b := (Inbox.empty 0 4).calls [.deliver (blankFrame 1), .drainFrames]
    let n := (fresh { Rules.brisk with frameDepth := 1 } ⟨4⟩).live
      [.deliver (blankFrame 1), .deliver (blankFrame 2), .step ⟨10⟩ fun _ => true, .deliver (blankFrame 3)]
    (((b.calls between).deliver (blankFrame 5)).1 = true ∧
      (∃ gone ≤ 1, (b.calls between).frames.overwrite (blankFrame 5) =
        some (true, gone, ((b.calls between).deliver (blankFrame 5)).2.frames)) ∧
      (b.calls between).frames.drain.1 = [blankFrame 4] ∧
      (b.calls between).frames.overwritten = b.frames.overwritten + 2 ∧ (b.calls between).coalesced = 2) ∧
      (n.stats.counters.framesReceived, n.stats.framesOverwritten, n.inbox.frames.items.length) = (1, 1, 1) ∧
      3 = n.stats.counters.framesReceived + n.stats.framesOverwritten + n.inbox.frames.items.length ∧
      n.inbox.signals.isSet .messageArrived = true := by
  intro between b n
  have hnew : ofRules ⟨4⟩ _ = .ok (fresh { Rules.brisk with frameDepth := 1 } ⟨4⟩) :=
    ofRules_eq_ok_iff.mpr ⟨by decide, by decide, rfl⟩
  obtain ⟨hcalls, hkeeps, hnode⟩ := mail_accounted 0 4
  obtain ⟨hends, -, -, hcoalesced⟩ := hcalls ([.deliver (blankFrame 1), .drainFrames] ++ between)
  obtain ⟨hdrained, hcounted⟩ := (hkeeps [.deliver (blankFrame 1), .drainFrames] between).1 (by decide) (by decide)
  obtain ⟨hbalance, hannounced⟩ := hnode ⟨4⟩ _ _ hnew
    [.deliver (blankFrame 1), .deliver (blankFrame 2), .step ⟨10⟩ fun _ => true, .deliver (blankFrame 3)]
  obtain ⟨hstored, hevicts⟩ := hends (blankFrame 5)
  exact ⟨⟨hstored, hevicts, hdrained, hcounted, hcoalesced.trans (by decide)⟩, by decide, hbalance,
    hannounced.mpr (by decide)⟩

end Node

end BoothFloor
