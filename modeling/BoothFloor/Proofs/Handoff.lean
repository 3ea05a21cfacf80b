import BoothFloor.Handoff
import BoothFloor.Proofs.Inbox
import Mathlib.Data.List.Basic

/-!
# Nothing is lost between threads

A thread that is left alone hands a frame over, or takes the frames out, as the inbox does in one go. In whatever
order the operations of several threads follow one another, every frame that was ever stored has been taken out
or is still there, in the order of the stores, and the frames that made room are counted. While frames are
there, they are announced, or somebody is about to announce them or to take them out.
-/

namespace BoothFloor

/-- What the next operation of a producer can do, each under its condition. -/
inductive Producer.Steps (b : Inbox) : Producer → Producer × Inbox × List Transfer → Prop
  | rests : Steps b .idle (.idle, b, [])
  | stores (f : Frame) (hroom : b.frames.items.length < b.frames.depth) :
      Steps b (.sending f)
        (.raising, { b with frames := { b.frames with items := b.frames.items ++ [f] } }, [.stored f])
  | givesUp (f : Frame) (hcut : b.frames.receivers = 0) : Steps b (.sending f) (.idle, b, [])
  | findsFull (f : Frame) (hfull : b.frames.depth ≤ b.frames.items.length) :
      Steps b (.sending f) (.evicting f, b, [])
  | evicts (f oldest : Frame) (rest : List Frame) (hitems : b.frames.items = oldest :: rest) :
      Steps b (.evicting f)
        (.counting f, { b with frames := { b.frames with items := rest } }, [.evicted oldest])
  | findsEmpty (f : Frame) (hitems : b.frames.items = []) : Steps b (.evicting f) (.sending f, b, [])
  | counts (f : Frame) :
      Steps b (.counting f)
        (.sending f, { b with frames := { b.frames with overwritten := b.frames.overwritten + 1 } }, [])
  | raises (hset : b.signals.isSet .messageArrived = false) :
      Steps b .raising (.idle, { b with signals := b.signals.raise .messageArrived }, [])
  | findsRaised (hset : b.signals.isSet .messageArrived = true) :
      Steps b .raising (.coalescing, { b with signals := b.signals.raise .messageArrived }, [])
  | coalesces : Steps b .coalescing (.idle, { b with coalesced := b.coalesced + 1 }, [])

/-- What the next operation of the consumer can do, each under its condition. -/
inductive Consumer.Steps (b : Inbox) : Consumer → Consumer × Inbox × List Transfer → Prop
  | setsOut (hset : b.signals.isSet .messageArrived = true) :
      Steps b .idle (.draining, b.clear .messageArrived, [])
  | rests (hset : b.signals.isSet .messageArrived = false) : Steps b .idle (.idle, b.clear .messageArrived, [])
  | takes (f : Frame) (rest : List Frame) (hitems : b.frames.items = f :: rest) :
      Steps b .draining (.draining, { b with frames := { b.frames with items := rest } }, [.drained f])
  | ends (hitems : b.frames.items = []) : Steps b .draining (.idle, b, [])

/-- Every operation of a producer is one of those. -/
theorem Producer.step_steps (p : Producer) (b : Inbox) : Producer.Steps b p (p.step b) := by
  cases p with
  | idle => exact .rests
  | counting f => exact .counts f
  | coalescing => exact .coalesces
  | sending f =>
    rw [step, Mailbox.trySend]
    by_cases hcut : b.frames.receivers = 0
    · rw [if_pos hcut]
      exact .givesUp f hcut
    · rw [if_neg hcut]
      by_cases hroom : b.frames.items.length < b.frames.depth
      · rw [if_pos hroom]
        exact .stores f hroom
      · rw [if_neg hroom]
        exact .findsFull f (Nat.le_of_not_lt hroom)
  | evicting f =>
    rw [step, Mailbox.tryRecv]
    cases hitems : b.frames.items with
    | nil => exact .findsEmpty f hitems
    | cons oldest rest => exact .evicts f oldest rest hitems
  | raising =>
    rw [step]
    cases hset : b.signals.isSet .messageArrived with
    | false => exact .raises hset
    | true => exact .findsRaised hset

/-- Every operation of the consumer is one of those. -/
theorem Consumer.step_steps (c : Consumer) (b : Inbox) : Consumer.Steps b c (c.step b) := by
  cases c with
  | idle =>
    rw [step]
    cases hset : b.signals.isSet .messageArrived with
    | false => exact .rests hset
    | true => exact .setsOut hset
  | draining =>
    rw [step, Mailbox.tryRecv]
    cases hitems : b.frames.items with
    | nil => exact .ends hitems
    | cons f rest => exact .takes f rest hitems

/-- What a thread makes of the inbox by some operations in a row, and their transfers. -/
def Handoff.alone {σ : Type} (step : σ → Inbox → σ × Inbox × List Transfer) :
    Nat → σ → Inbox → σ × Inbox × List Transfer
  | 0, s, b => (s, b, [])
  | n + 1, s, b =>
    let first := step s b
    let rest := alone step n first.1 first.2.1
    (rest.1, rest.2.1, first.2.2 ++ rest.2.2)

namespace Inbox

open Handoff (alone)

variable {b : Inbox}

/-- A producer that is left alone hands its frame over as the inbox does in one go. -/
theorem alone_deliver (hsound : b.frames.Sound) (f : Frame) :
    (alone Producer.step 6 (.sending f) b).1 = .idle ∧
      (alone Producer.step 6 (.sending f) b).2.1 = (b.deliver f).2 := by
  obtain ⟨hdepth, hle, hends⟩ := hsound
  have hne := Nat.ne_of_gt hends
  -- with room the frame is stored at once, else the oldest one has to go first
  by_cases hroom : b.frames.items.length < b.frames.depth
  · cases hset : b.signals.isSet .messageArrived <;>
      simp [alone, Producer.step, Mailbox.trySend, hroom, hset, deliver, raise, Mailbox.send, hne]
  · cases hitems : b.frames.items with
    | nil =>
      rw [hitems] at hroom
      exact absurd hdepth hroom
    | cons oldest rest =>
      rw [hitems, List.length_cons] at hroom hle
      have hrest : rest.length < b.frames.depth := hle
      cases hset : b.signals.isSet .messageArrived <;>
        simp [alone, Producer.step, Mailbox.trySend, Mailbox.tryRecv, hitems, hroom, hrest, hset, deliver, raise,
          Mailbox.send, hne]

/-- A consumer that is left alone takes out all frames, oldest first. -/
theorem alone_drain (b : Inbox) :
    alone Consumer.step (b.frames.items.length + 1) .draining b =
      (.idle, b.drainFrames.2, b.drainFrames.1.map .drained) := by
  obtain ⟨frames, intents, signals, coalesced⟩ := b
  obtain ⟨depth, receivers, items, overwritten⟩ := frames
  induction items with
  | nil => rfl
  | cons f rest ih =>
    rw [List.length_cons, alone]
    simp only [Consumer.step, Mailbox.tryRecv]
    rw [ih]
    rfl

/-- A consumer that is left alone reads announced frames as the inbox does in one go. -/
theorem alone_afterFrames (hset : b.signals.isSet .messageArrived = true) :
    alone Consumer.step (b.frames.items.length + 2) .idle b =
      (.idle, b.afterFrames, b.frames.items.map .drained) := by
  have hdrain := (b.clear .messageArrived).alone_drain
  rw [alone]
  simp only [Consumer.step, hset, if_true]
  rw [show b.frames.items.length = (b.clear .messageArrived).frames.items.length from rfl, hdrain, afterFrames,
    if_pos hset]
  rfl

end Inbox

namespace Transfer

/-- The frame that a transfer puts into the mailbox. -/
def stored? : Transfer → Option Frame
  | stored f => some f
  | _ => none

/-- The frame that makes room for another one. -/
def evicted? : Transfer → Option Frame
  | evicted f => some f
  | _ => none

/-- The frame that is taken out to be read. -/
def drained? : Transfer → Option Frame
  | drained f => some f
  | _ => none

/-- The frame that a transfer takes out, for whatever purpose. -/
def taken? : Transfer → Option Frame
  | evicted f | drained f => some f
  | stored _ => none

end Transfer

/-- Whether a producer has taken the oldest frame out and has not counted it yet. -/
def Producer.isCounting : Producer → Bool
  | counting _ => true
  | _ => false

namespace Handoff

/-- The frames that were ever stored, in the order of the stores. -/
def stored (h : Handoff) : List Frame := h.log.filterMap Transfer.stored?

/-- The frames that had to make room, in order. -/
def evicted (h : Handoff) : List Frame := h.log.filterMap Transfer.evicted?

/-- The frames that the consumer has taken out, in order. -/
def drained (h : Handoff) : List Frame := h.log.filterMap Transfer.drained?

/-- The frames that were taken out by anyone, in order. -/
def taken (h : Handoff) : List Frame := h.log.filterMap Transfer.taken?

/-- No frame and no wake-up is lost: what was stored has been taken out or is still there, in order, and never
more than there is room for; each frame that made room is counted or about to be; and while frames are there they
are announced, or the consumer is taking them out, or a producer is about to announce them. -/
structure Sound (h : Handoff) : Prop where
  order : h.stored = h.taken ++ h.inbox.frames.items
  mailbox : h.inbox.frames.Sound
  counted : h.evicted.length = h.inbox.frames.overwritten + h.producers.countP Producer.isCounting
  announced : h.inbox.frames.items ≠ [] →
    h.inbox.signals.isSet .messageArrived = true ∨ h.consumer = .draining ∨ .raising ∈ h.producers

variable {h : Handoff} {k : Nat} {p : Producer}

/-- A producer other than the one that goes on is where it was. -/
theorem mem_set_of_ne {producers : List Producer} {x y : Producer} (hp : producers[k]? = some p)
    (hx : x ∈ producers) (hne : x ≠ p) : x ∈ producers.set k y := by
  obtain ⟨j, hj⟩ := List.mem_iff_getElem?.mp hx
  have hjk : k ≠ j := by
    rintro rfl
    exact hne (Option.some.inj (hj.symm.trans hp))
  exact List.mem_iff_getElem?.mpr ⟨j, by rw [List.getElem?_set_ne hjk, hj]⟩

/-- As one producer goes on, the number of those that have to count a frame changes by that producer. -/
theorem countP_set_producer {producers : List Producer} (hp : producers[k]? = some p) (q : Producer) :
    (producers.set k q).countP Producer.isCounting + (if p.isCounting then 1 else 0) =
      producers.countP Producer.isCounting + if q.isCounting then 1 else 0 := by
  obtain ⟨hk, hget⟩ := List.getElem?_eq_some_iff.mp hp
  have hset := List.countP_set (p := Producer.isCounting) (a := q) hk
  have hpos : p.isCounting = true → 0 < producers.countP Producer.isCounting := fun hcounting =>
    List.countP_pos_iff.mpr ⟨p, hget ▸ List.getElem_mem hk, hcounting⟩
  rw [hget] at hset
  rw [hset]
  cases hcounting : p.isCounting with
  | false => simp
  | true =>
    have hone := hpos hcounting
    simp only [if_true]
    omega

/-- An inbox that has just been opened has lost nothing. -/
theorem sound_idle (frameDepth intentDepth producers : Nat) : (idle frameDepth intentDepth producers).Sound where
  order := rfl
  mailbox := Mailbox.sound_empty _
  counted := by
    rw [idle, List.countP_replicate]
    rfl
  announced := fun h => absurd rfl h

/-- An operation of a producer that moves no frame loses nothing, if it keeps the count of those that made room and
does not leave a frame unannounced. -/
theorem Sound.goes_on (hsound : h.Sound) (hp : h.producers[k]? = some p) {q : Producer} {b : Inbox}
    (hitems : b.frames.items = h.inbox.frames.items) (hdepth : b.frames.depth = h.inbox.frames.depth)
    (hends : b.frames.receivers = h.inbox.frames.receivers)
    (hcount : b.frames.overwritten + (if q.isCounting then 1 else 0) =
      h.inbox.frames.overwritten + if p.isCounting then 1 else 0)
    (hsignal : b.signals.isSet .messageArrived = true ∨
      p ≠ .raising ∧ b.signals.isSet .messageArrived = h.inbox.signals.isSet .messageArrived) :
    ({ h with inbox := b, producers := h.producers.set k q, log := h.log ++ [] } : Handoff).Sound where
  order := by
    simp only [stored, taken, List.append_nil, hitems]
    exact hsound.order
  mailbox :=
    { depth := hdepth ▸ hsound.mailbox.depth
      room := by
        rw [hitems, hdepth]
        exact hsound.mailbox.room
      connected := hends ▸ hsound.mailbox.connected }
  counted := by
    have hset := countP_set_producer hp q
    have hcounted := hsound.counted
    simp only [evicted, List.append_nil] at hcounted ⊢
    omega
  announced := by
    intro hne
    rw [hitems] at hne
    rcases hsignal with hset | ⟨hother, hsame⟩
    · exact .inl hset
    · rw [hsame]
      exact (hsound.announced hne).imp_right (Or.imp_right fun hmem => mem_set_of_ne hp hmem (Ne.symm hother))

/-- The operation of a producer loses nothing. -/
theorem Sound.produce (hsound : h.Sound) (hp : h.producers[k]? = some p) :
    ({ h with
      inbox := (p.step h.inbox).2.1
      producers := h.producers.set k (p.step h.inbox).1
      log := h.log ++ (p.step h.inbox).2.2 } : Handoff).Sound := by
  have hset := countP_set_producer hp
  have horder := hsound.order
  have hcounted := hsound.counted
  have hsteps := p.step_steps h.inbox
  generalize p.step h.inbox = outcome at hsteps
  cases hsteps with
  | rests | givesUp | findsFull | findsEmpty | counts | coalesces =>
    exact hsound.goes_on hp rfl rfl rfl rfl (.inr ⟨nofun, rfl⟩)
  | raises | findsRaised => exact hsound.goes_on hp rfl rfl rfl rfl (.inl (by simp [Signals.isSet_raise]))
  | stores f hroom =>
    have hk := (List.getElem?_eq_some_iff.mp hp).1
    have hraising := hset .raising
    constructor
    case order =>
      simp only [stored, taken, List.filterMap_append] at horder ⊢
      rw [horder, List.append_assoc]
      simp [Transfer.stored?, Transfer.taken?]
    case mailbox => exact { hsound.mailbox with room := by simpa [Nat.succ_le_iff] using hroom }
    case counted =>
      simp only [evicted, List.filterMap_append, List.length_append] at hcounted ⊢
      simp only [Producer.isCounting, Bool.false_eq_true, if_false, Nat.add_zero] at hraising
      simp only [Transfer.evicted?, List.filterMap_cons, List.filterMap_nil, List.length_nil]
      omega
    case announced => exact fun _ => .inr (.inr (List.mem_set hk .raising))
  | evicts f oldest rest hitems =>
    have hcounting := hset (.counting f)
    rw [hitems] at horder
    constructor
    case order =>
      simp only [stored, taken, List.filterMap_append] at horder ⊢
      rw [horder]
      simp [Transfer.stored?, Transfer.taken?]
    case mailbox =>
      have hroom := hsound.mailbox.room
      rw [hitems, List.length_cons] at hroom
      exact { hsound.mailbox with room := Nat.le_of_succ_le hroom }
    case counted =>
      simp only [evicted, List.filterMap_append, List.length_append] at hcounted ⊢
      simp only [Producer.isCounting, Bool.false_eq_true, if_false, if_true, Nat.add_zero] at hcounting
      simp only [Transfer.evicted?, List.filterMap_cons, List.filterMap_nil, List.length_singleton]
      omega
    case announced =>
      intro _
      have hthere : h.inbox.frames.items ≠ [] := by simp [hitems]
      exact (hsound.announced hthere).imp_right (Or.imp_right fun hmem => mem_set_of_ne hp hmem nofun)

/-- The operation of the consumer loses nothing. -/
theorem Sound.consume (hsound : h.Sound) : (h.step .consume).Sound := by
  have horder := hsound.order
  have hcounted := hsound.counted
  have hsteps := h.consumer.step_steps h.inbox
  unfold step
  generalize hconsumer : h.consumer = c at hsteps
  generalize c.step h.inbox = outcome at hsteps
  cases hsteps with
  | setsOut =>
    refine ⟨?_, hsound.mailbox, ?_, fun _ => .inr (.inl rfl)⟩
    · simpa [stored, taken, Inbox.clear] using horder
    · simpa [evicted, Inbox.clear] using hcounted
  | rests hset =>
    -- nothing was announced, so a producer is about to, if there is a frame
    refine ⟨?_, hsound.mailbox, ?_, fun hthere => ?_⟩
    · simpa [stored, taken, Inbox.clear] using horder
    · simpa [evicted, Inbox.clear] using hcounted
    · have hknown := hsound.announced hthere
      rw [hset, hconsumer] at hknown
      simp only [Bool.false_eq_true, reduceCtorEq, false_or] at hknown
      exact .inr (.inr hknown)
  | ends hitems =>
    refine ⟨?_, hsound.mailbox, ?_, fun hthere => absurd hitems hthere⟩
    · simpa [stored, taken] using horder
    · simpa [evicted] using hcounted
  | takes f rest hitems =>
    rw [hitems] at horder
    refine ⟨?_, ?_, ?_, fun _ => .inr (.inl rfl)⟩
    · simp only [stored, taken, List.filterMap_append] at horder ⊢
      rw [horder]
      simp [Transfer.stored?, Transfer.taken?]
    · have hroom := hsound.mailbox.room
      rw [hitems, List.length_cons] at hroom
      exact { hsound.mailbox with room := Nat.le_of_succ_le hroom }
    · simpa [evicted, Transfer.evicted?, List.filterMap_cons] using hcounted

/-- No move loses anything. -/
theorem Sound.step (hsound : h.Sound) (move : Move) : (h.step move).Sound := by
  cases move with
  | consume => exact hsound.consume
  | produce k =>
    cases hp : h.producers[k]? with
    | none => simpa only [Handoff.step, hp] using hsound
    | some p => simpa only [Handoff.step, hp] using hsound.produce hp
  | begin k f =>
    unfold Handoff.step
    dsimp only
    split
    · next hidle =>
      have hbegun := hsound.goes_on (q := .sending f) hidle rfl rfl rfl rfl (.inr ⟨nofun, rfl⟩)
      rwa [List.append_nil] at hbegun
    · exact hsound
  | signal g value =>
    unfold Handoff.step
    dsimp only
    split
    · exact hsound
    · next hother =>
      refine ⟨hsound.order, hsound.mailbox, hsound.counted, fun hne => ?_⟩
      dsimp only
      rw [Signals.isSet_put_of_ne _ _ (Ne.symm hother)]
      exact hsound.announced hne

/-- Nothing is lost by any schedule. -/
theorem Sound.run (hsound : h.Sound) (schedule : List Move) : (h.run schedule).Sound := by
  induction schedule generalizing h with
  | nil => exact hsound
  | cons move rest ih => exact ih (hsound.step move)

/-- At any time a producer hands its frame over as the inbox does in one go, if the others let it. -/
theorem run_alone_deliver (frameDepth intentDepth producers : Nat) (schedule : List Move) (f : Frame) :
    let b := ((idle frameDepth intentDepth producers).run schedule).inbox
    (alone Producer.step 6 (.sending f) b).1 = .idle ∧
      (alone Producer.step 6 (.sending f) b).2.1 = (b.deliver f).2 :=
  Inbox.alone_deliver ((sound_idle frameDepth intentDepth producers).run schedule).mailbox f

/-- Every frame that is taken out makes room or is read. -/
theorem length_taken (h : Handoff) : h.taken.length = h.drained.length + h.evicted.length := by
  unfold taken drained evicted
  induction h.log with
  | nil => rfl
  | cons t rest ih =>
    cases t <;>
      simp only [List.filterMap_cons, Transfer.taken?, Transfer.drained?, Transfer.evicted?, List.length_cons] <;>
      omega

/-- In whatever order any number of producers and the consumer take their steps, no wake-up and no count is lost.
While no producer is between the store of its frame and the signal and the consumer is not taking frames out, the
frames in the mailbox are announced. All frames ever stored are those taken out and those still there, in the
order of the stores, so they are as many as those read, those that made room and those still there together; and
the count of the frames that made room lacks those that a producer has taken out without having counted them. -/
theorem run_loses_nothing (frameDepth intentDepth producers : Nat) (schedule : List Move) :
    let h := (idle frameDepth intentDepth producers).run schedule
    (.raising ∉ h.producers → h.consumer ≠ .draining → h.inbox.frames.items ≠ [] →
      h.inbox.signals.isSet .messageArrived = true) ∧
    h.stored = h.taken ++ h.inbox.frames.items ∧
    h.stored.length = h.drained.length + h.evicted.length + h.inbox.frames.items.length ∧
    h.evicted.length = h.inbox.frames.overwritten + h.producers.countP Producer.isCounting := by
  intro h
  have hsound : h.Sound := (sound_idle frameDepth intentDepth producers).run schedule
  refine ⟨fun hraising hdraining hthere => ?_, hsound.order, ?_, hsound.counted⟩
  · rcases hsound.announced hthere with hset | hdrains | hraises
    · exact hset
    · exact absurd hdrains hdraining
    · exact absurd hraises hraising
  · rw [hsound.order, List.length_append, h.length_taken]

/-- Two producers hand frames over to an inbox with room for one, and the consumer asks for the signal between the
first store and its announcement. The second producer has not counted yet that it found the signal set. -/
def crossing : List Move :=
  let frame (source : UInt8) : Frame := ⟨⟨source⟩, [], -50, 8⟩
  [.begin 0 (frame 4), .begin 1 (frame 5), .produce 0, .consume, .produce 0] ++ .replicate 5 (.produce 1)

/-- The frame of the second producer waits and is announced, and the frame that made room for it is counted. -/
theorem run_loses_nothing_crossing :
    let h := (idle 1 4 2).run crossing
    h.producers = [.idle, .coalescing] ∧ h.inbox.signals.isSet .messageArrived = true ∧ h.stored.length = 2 ∧
      h.evicted.length = 1 ∧ h.inbox.frames.items.length = 1 ∧ h.inbox.frames.overwritten = 1 := by
  intro h
  have hproducers : h.producers = [.idle, .coalescing] := by decide
  have hthere : h.inbox.frames.items ≠ [] := by decide
  obtain ⟨hannounced, -, -, -⟩ := run_loses_nothing 1 4 2 crossing
  have hset := hannounced (by decide) (by decide) hthere
  exact ⟨hproducers, hset, by decide, by decide, by decide, by decide⟩

end Handoff

end BoothFloor
