import BoothFloor.Proofs.Host.Confirmation
import BoothFloor.Proofs.Host.Offer
import Mathlib.Data.List.Infix

/-!
# Nobody overtakes the queue

A reaction changes the queue by one user at most: somebody leaves it from any place, or a newcomer
joins at its end. So two users keep their order while the first of them waits. A user is let in only
beside a slot for everybody ahead of it, which is why a waiter for whom there is a slot does not lose
it to the request of another user, and an offer goes to the head of the queue.
-/

namespace BoothFloor

/-- What a reaction can do to a queue under the rules. -/
inductive QueueChange (r : Rules) (queue : List NodeId) : List NodeId → Prop
  /-- Everybody keeps the place. -/
  | stays : QueueChange r queue queue
  /-- One user leaves, if it waits. -/
  | leaves (u : NodeId) : QueueChange r queue (queue.erase u)
  /-- A visitor that did not wait joins at the end. -/
  | joins (u : NodeId) (hguest : r.isHost u = false) (hnew : u ∉ queue) :
      QueueChange r queue (queue ++ [u])

/-- When somebody leaves a queue, those behind move up by one and the others stay where they are. -/
theorem idxOf_erase {a u : NodeId} (hne : a ≠ u) (queue : List NodeId) :
    (queue.erase u).idxOf a =
      if queue.idxOf u < queue.idxOf a then queue.idxOf a - 1 else queue.idxOf a := by
  induction queue with
  | nil => rfl
  | cons x rest ih =>
    by_cases hu : x = u
    · subst hu
      rw [List.erase_cons_head, List.idxOf_cons_self, List.idxOf_cons_ne _ hne.symm]
      simp
    · rw [List.erase_cons_tail (by simpa using hu), List.idxOf_cons_ne _ hu]
      by_cases ha : x = a
      · subst ha
        simp
      · rw [List.idxOf_cons_ne _ ha, List.idxOf_cons_ne _ ha, ih]
        split <;> split <;> omega

/-- Two users keep their order as long as the first of them waits. -/
theorem QueueChange.idxOf_lt {r : Rules} {queue queue' : List NodeId} (h : QueueChange r queue queue')
    (hnodup : queue.Nodup) {a c : NodeId} (horder : queue.idxOf a < queue.idxOf c)
    (hwaits : a ∈ queue') : queue'.idxOf a < queue'.idxOf c := by
  cases h with
  | stays => exact horder
  | leaves u =>
    obtain ⟨hne, ha⟩ := hnodup.mem_erase_iff.mp hwaits
    have hplace : queue.idxOf a ≠ queue.idxOf u := fun heq => hne ((List.idxOf_inj ha).mp heq)
    by_cases hc : c = u
    · subst hc
      rw [List.idxOf_of_notMem hnodup.not_mem_erase]
      exact List.idxOf_lt_length_iff.mpr hwaits
    · rw [idxOf_erase hne, idxOf_erase hc]
      split <;> split <;> omega
  | joins u =>
    have ha : a ∈ queue :=
      List.idxOf_lt_length_iff.mp (Nat.lt_of_lt_of_le horder List.idxOf_le_length)
    rw [List.idxOf_append_of_mem ha]
    by_cases hc : c ∈ queue
    · rw [List.idxOf_append_of_mem hc]
      exact horder
    · rw [List.idxOf_append_of_notMem hc]
      exact Nat.lt_of_lt_of_le (List.idxOf_lt_length_iff.mpr ha) (Nat.le_add_right _ _)

namespace Booth

variable {b : Booth} {u w : NodeId} {now : Instant}

/-- A user waits, and it does so ahead of another one, who need not wait at all. -/
def Before (b : Booth) (first second : NodeId) : Prop :=
  b.waiting.idxOf first < b.waiting.idxOf second

/-- There is a slot for a waiter beside those for everybody ahead of it. -/
def HasSlot (b : Booth) (w : NodeId) : Prop :=
  ∃ p, b.position? w = some p ∧ b.active.length + (p - 1) < b.capacity

/-- The slot of a waiter, by its index in the queue. -/
theorem hasSlot_iff (b : Booth) (w : NodeId) :
    b.HasSlot w ↔ w ∈ b.waiting ∧ b.active.length + b.waiting.idxOf w < b.capacity := by
  by_cases hw : w ∈ b.waiting
  · simp [HasSlot, position?_of_mem hw, hw]
  · simp [HasSlot, position?_of_not_mem hw, hw]

/-- The head of a queue waits ahead of nobody else. -/
theorem not_before_of_head {first second : NodeId} (hhead : b.waiting.head? = some second) :
    ¬ b.Before first second := by
  obtain ⟨rest, hrest⟩ := List.head?_eq_some_iff.mp hhead
  simp [Before, hrest]

/-- Offering a slot leaves the queue as it is. -/
theorem offerNext_waiting (b : Booth) (now : Instant) : (b.offerNext now).2.waiting = b.waiting := by
  rw [offerNext_snd]

/-- Offering a slot takes none from a waiter. -/
theorem HasSlot.offerNext (h : b.HasSlot w) (now : Instant) : (b.offerNext now).2.HasSlot w := by
  rw [offerNext_snd]
  exact h

/-- Whoever is let in is so beside a slot for everybody ahead of it. -/
theorem welcome_of_admitted {left : Bool} (h : (b.register u now).1 = .admitted left) :
    b.active.length + b.ahead u < b.capacity ∧ (b.register u now).2 = b.welcome u now := by
  have hjudged := register_judged b u now
  generalize b.register u now = outcome at h hjudged
  cases hjudged with
  | enters _ _ hslot => exact ⟨hslot, rfl⟩
  | _ => cases h

/-- However the request of another user ends, a waiter for whom there is a slot keeps it. -/
theorem HasSlot.register (h : b.HasSlot w) (hne : w ≠ u) : (b.register u now).2.HasSlot w := by
  obtain ⟨hw, hslot⟩ := (hasSlot_iff b w).mp h
  have hjudged := register_judged b u now
  generalize b.register u now = outcome at hjudged
  cases hjudged with
  | joins =>
    rw [hasSlot_iff]
    exact ⟨List.mem_append_left _ hw, by rwa [List.idxOf_append_of_mem hw]⟩
  | enters _ _ hahead =>
    rw [ahead_eq] at hahead
    have hplace : b.waiting.idxOf w ≠ b.waiting.idxOf u := fun heq => hne ((List.idxOf_inj hw).mp heq)
    rw [hasSlot_iff]
    refine ⟨(List.mem_erase_of_ne hne).mpr hw, ?_⟩
    simp only [welcome, List.length_append, List.length_singleton, idxOf_erase hne]
    -- a waiter behind the user moves up into its place, one ahead has a slot beside the user's own
    split <;> omega
  | _ => exact h

/-- Judging a request of a visitor changes the queue by that visitor at most. -/
theorem register_queue {r : Rules} (hguest : r.isHost u = false) :
    QueueChange r b.waiting (b.register u now).2.waiting := by
  have hjudged := register_judged b u now
  generalize b.register u now = outcome at hjudged
  cases hjudged with
  | joins _ _ hwait => exact .joins u hguest hwait
  | enters => exact .leaves u
  | _ => exact .stays

/-- Leaving the queue changes it by one user at most. -/
theorem leaveQueue_waiting (b : Booth) (u : NodeId) : (b.leaveQueue u).2.waiting = b.waiting.erase u := by
  change ((b.removeWaiting u).releaseOffer u).waiting = _
  rw [releaseOffer_eq]
  rfl

/-- Withdrawing an overdue offer takes its holder off the queue, and nobody else. -/
theorem sweepOffer_queue (r : Rules) (b : Booth) (now : Instant) (limit : Span) :
    QueueChange r b.waiting (b.sweepOffer now limit).2.waiting := by
  rcases b.sweepOffer_cases now limit with ⟨o, -, -, heq⟩ | heq
  · rw [heq]
    exact .leaves o.user
  · rw [heq]
    exact .stays

/-- A user at the head of the queue has been offered a slot just now. -/
structure OffersTo (b : Booth) (u : NodeId) (now : Instant) : Prop where
  head : b.waiting.head? = some u
  offer : b.offer = some ⟨u, now⟩

/-- A slot is offered to the head of the queue. -/
theorem offersTo_of_mem_offerLetters {msg : Message} (h : (u, msg) ∈ b.offerLetters now) :
    (b.offerNext now).2.OffersTo u now := by
  rcases b.offerLetters_cases now with ⟨head, rest, hwait, -, hnext, hletters⟩ | ⟨-, hletters⟩ <;> rw [hletters] at h
  · obtain ⟨rfl, -⟩ := Prod.mk.inj (List.mem_singleton.mp h)
    rw [hnext]
    exact ⟨congrArg List.head? hwait, rfl⟩
  · cases h

/-- The answer to a request offers a slot only after an admission from the queue. -/
theorem offersTo_of_answer (h : (w, .queueReady) ∈ answerLetters u now (b.register u now)) :
    (b.register u now).1 = .admitted true ∧ ((b.register u now).2.offerNext now).2.OffersTo w now := by
  generalize b.register u now = outcome at h
  obtain ⟨verdict, after⟩ := outcome
  rcases verdict with (_ | _) | _ | _ | _ | _
  case admitted.true =>
    rcases List.mem_cons.mp h with hfirst | hrest
    · cases hfirst
    · rcases List.mem_append.mp hrest with hnews | hoffer
      · obtain ⟨-, _, _, heq⟩ := mem_queueUpdates hnews
        cases heq
      · exact ⟨rfl, offersTo_of_mem_offerLetters hoffer⟩
  all_goals simp [answerLetters] at h

end Booth

namespace Host

variable {h : Host} {m : Moment} {i : Input} {u w : NodeId}

/-- A reaction changes the queue by one user at most, and a newcomer is a visitor. -/
theorem react_queue (h : Host) (m : Moment) (i : Input) :
    QueueChange h.rules h.booth.waiting (h.react m i).1.booth.waiting := by
  cases i with
  | start | timer => exact .stays
  | intent i => cases i <;> exact .stays
  | tick =>
    change QueueChange _ _ (h.onTick m).1.booth.waiting
    rw [onTick_fst]
    split
    · simp only [sweep_fst, Booth.offerNext_waiting]
      have hswept := (h.booth.sweepSessions m.now h.rules.sessionDuration).2.sweepOffer_queue h.rules m.now
        h.rules.queueReadyTimeout
      rwa [Booth.sweepSessions_waiting] at hswept
    · exact .stays
  | message source message =>
    change QueueChange _ _ (h.onMessage m.now source message).1.booth.waiting
    rw [onMessage_fst]
    split
    · exact .stays
    next hguest =>
    cases message with
    | registerRequest =>
      simp only [onRegister_fst]
      have hjudged : QueueChange h.rules h.booth.waiting (h.booth.register source m.now).2.waiting :=
        Booth.register_queue (Bool.eq_false_iff.mpr hguest)
      split
      · rwa [Booth.offerNext_waiting]
      · exact hjudged
    | exitRequest =>
      simp only [onExit_fst]
      split
      · rw [Booth.offerNext_waiting]
        exact .stays
      · exact .stays
    | queueLeave =>
      simp only [onQueueLeave_fst]
      split
      · rw [Booth.offerNext_waiting, Booth.leaveQueue_waiting]
        exact .leaves source
      · rw [Booth.leaveQueue_waiting]
        exact .leaves source
    | _ => exact .stays

/-- Two users keep their order over a reaction, unless the first of them leaves the queue. -/
theorem react_before (horderly : h.booth.Orderly) (m : Moment) (i : Input) {a c : NodeId}
    (hbefore : h.booth.Before a c) (hwaits : a ∈ (h.react m i).1.booth.waiting) :
    (h.react m i).1.booth.Before a c :=
  (h.react_queue m i).idxOf_lt horderly.waiting_nodup hbefore hwaits

/-- Only visitors wait. -/
theorem react_guests (hguests : ∀ v ∈ h.booth.waiting, h.rules.isHost v = false) (m : Moment) (i : Input) :
    ∀ v ∈ (h.react m i).1.booth.waiting, (h.react m i).1.rules.isHost v = false := by
  rw [react_rules]
  have hchange := h.react_queue m i
  generalize (h.react m i).1.booth.waiting = queue at hchange
  cases hchange with
  | stays => exact hguests
  | leaves u => exact fun v hv => hguests v (List.mem_of_mem_erase hv)
  | joins u hguest =>
    intro v hv
    rcases List.mem_append.mp hv with hv | hv
    · exact hguests v hv
    · exact List.mem_singleton.mp hv ▸ hguest

/-- Only visitors wait at the booth of a run. -/
theorem run_guests (id : NodeId) (r : Rules) (events : List (Moment × Input)) :
    ∀ v ∈ ((ofRules id r).run events).1.booth.waiting, r.isHost v = false := by
  have hrules : ((ofRules id r).run events).1.rules = r := run_rules (ofRules id r) events
  have hguests : ∀ v ∈ ((ofRules id r).run events).1.booth.waiting,
      ((ofRules id r).run events).1.rules.isHost v = false := by
    apply runWith_keeps (P := fun h : Host => ∀ v ∈ h.booth.waiting, h.rules.isHost v = false)
    · exact fun v hv => absurd hv List.not_mem_nil
    · exact fun _ m i _ hkept => react_guests hkept m i
  rwa [hrules] at hguests

/-- A tick offers a slot to the head of the queue only. -/
theorem onTick_offers (hsent : (w, .queueReady) ∈ Action.sent (h.onTick m).2) :
    (h.onTick m).1.booth.OffersTo w m.now := by
  rw [onTick_sent, broadcast_sent] at hsent
  rw [onTick_fst]
  rcases List.mem_append.mp hsent with hsent | hsent
  · split at hsent
    · next hdue =>
      rw [if_pos hdue, sweep_fst]
      simp only [sweep_sent, List.mem_append, List.mem_map, Prod.mk.injEq, reduceCtorEq, and_false,
        exists_false, false_or] at hsent
      rcases hsent with hnews | hoffer
      · obtain ⟨_, _, heq⟩ := Booth.mem_withdrawalLetters hnews
        cases heq
      · exact Booth.offersTo_of_mem_offerLetters hoffer
    · cases hsent
  · split at hsent
    · simp at hsent
    · cases hsent

/-- The answer to a message offers a slot to the head of the queue only. -/
theorem onMessage_offers {now : Instant} {source : NodeId} {message : Message}
    (hsent : (w, .queueReady) ∈ Action.sent (h.onMessage now source message).2) :
    (h.onMessage now source message).1.booth.OffersTo w now := by
  rw [onMessage_sent] at hsent
  rw [onMessage_fst]
  split at hsent
  · cases hsent
  next hguest =>
  rw [if_neg hguest]
  cases message with
  | registerRequest =>
    rw [onRegister_sent] at hsent
    obtain ⟨hverdict, hoffers⟩ := Booth.offersTo_of_answer hsent
    simpa only [onRegister_fst, if_pos hverdict] using hoffers
  | exitRequest =>
    simp only [onExit_sent] at hsent
    split at hsent
    · next hin =>
      rcases List.mem_cons.mp hsent with hfirst | hoffer
      · cases hfirst
      · simpa only [onExit_fst, if_pos ((h.booth.isSome_removeActive source).mpr hin)] using
          Booth.offersTo_of_mem_offerLetters hoffer
    · cases List.mem_singleton.mp hsent
  | queueLeave =>
    simp only [onQueueLeave_sent, List.mem_append] at hsent
    rcases hsent with hnews | hoffer
    · split at hnews
      · obtain ⟨-, _, _, heq⟩ := Booth.mem_queueUpdates hnews
        cases heq
      · cases hnews
    · split at hoffer
      · next hheld =>
        have hreleased : (h.booth.leaveQueue source).1.offerReleased = true := hheld
        simpa only [onQueueLeave_fst, if_pos hreleased] using Booth.offersTo_of_mem_offerLetters hoffer
      · cases hoffer
  | chat sender text =>
    simp only [onChat_sent] at hsent
    split at hsent
    · simp at hsent
    · cases hsent
  | _ => simp at hsent

/-- A slot is offered to the head of the queue only. -/
theorem react_offers (hsent : (w, .queueReady) ∈ Action.sent (h.react m i).2) :
    (h.react m i).1.booth.OffersTo w m.now := by
  cases i with
  | start => simp [react, announceTo, Action.sent] at hsent
  | timer => cases hsent
  | intent i => cases i <;> simp [react, onIntent, Action.sent] at hsent
  | tick => exact onTick_offers hsent
  | message source message => exact onMessage_offers hsent

/-- In a run at whose every moment a user waits, nobody behind it is offered a slot. -/
theorem run_before (horderly : h.booth.Orderly) {a c : NodeId} (hbefore : h.booth.Before a c)
    {events : List (Moment × Input)}
    (hwaits : ∀ part, part <+: events → a ∈ (h.run part).1.booth.waiting) :
    (c, .queueReady) ∉ Action.sent (h.run events).2 := by
  induction events generalizing h with
  | nil => exact List.not_mem_nil
  | cons e rest ih =>
    obtain ⟨m, i⟩ := e
    have hnext : (h.react m i).1.booth.Before a c := by
      refine react_before horderly m i hbefore ?_
      have hone := hwaits [(m, i)] ⟨rest, rfl⟩
      rwa [run, runWith_singleton] at hone
    change _ ∉ Action.sent ((h.react m i).2 ++ ((h.react m i).1.run rest).2)
    rw [Action.sent_append, List.mem_append]
    rintro (hfirst | hlater)
    · exact Booth.not_before_of_head (react_offers hfirst).head hnext
    · refine ih (react_orderly horderly m i) hnext (fun part hpart => ?_) hlater
      exact hwaits ((m, i) :: part) (List.cons_prefix_cons.mpr ⟨rfl, hpart⟩)

/-- The booth after a request to register: the judgement, and an offer to the next waiter if the user
came from the queue. Those of other hosts are ignored. -/
theorem react_register_booth (h : Host) (m : Moment) (u : NodeId) (rssi : Int16) (snr : Int8) :
    (h.react m (.message u .registerRequest rssi snr)).1.booth =
      if h.rules.isHost u then h.booth
      else if (h.booth.register u m.now).1 = .admitted true then
        ((h.booth.register u m.now).2.offerNext m.now).2
      else (h.booth.register u m.now).2 := by
  change (h.onMessage m.now u .registerRequest).1.booth = _
  rw [onMessage_fst]
  split
  · rfl
  · rw [onRegister_fst]

/-- Nobody overtakes the queue of a run. Whoever is let in leaves a slot for everybody that was ahead of
it, so that the request of one user takes no slot from another one that waits; an offer goes to the
head of the queue only, so that nobody is offered a slot while somebody ahead of it keeps waiting. -/
theorem run_no_overtaking (id : NodeId) (r : Rules) (events : List (Moment × Input)) :
    let h := ((ofRules id r).run events).1
    (∀ m u rssi snr,
      let next := (h.react m (.message u .registerRequest rssi snr)).1.booth
      (∀ left, (h.booth.register u m.now).1 = .admitted left →
        next.active.length + h.booth.ahead u ≤ next.capacity) ∧
      ∀ w, w ≠ u → h.booth.HasSlot w → next.HasSlot w) ∧
    (∀ m i u, (u, .queueReady) ∈ Action.sent (h.react m i).2 →
      (h.react m i).1.booth.OffersTo u m.now) ∧
    ∀ a c later, h.booth.Before a c →
      (∀ part, part <+: later → a ∈ (h.run part).1.booth.waiting) →
      (c, .queueReady) ∉ Action.sent (h.run later).2 := by
  intro h
  have horderly : h.booth.Orderly := run_orderly (Booth.orderly_ofRules id r) events
  refine ⟨fun m u rssi snr => ⟨fun left hleft => ?_, fun w hne hslot => ?_⟩, fun m i u => react_offers,
    fun a c later hbefore hwaits => run_before horderly hbefore hwaits⟩
  · obtain ⟨hslot, hwelcome⟩ := Booth.welcome_of_admitted hleft
    rw [react_register_booth, hwelcome]
    split
    · exact Nat.le_of_lt hslot
    · have hentered : (h.booth.welcome u m.now).active.length + h.booth.ahead u ≤ h.booth.capacity := by
        simp only [Booth.welcome, List.length_append, List.length_singleton]
        omega
      split
      · rw [Booth.offerNext_snd]
        exact hentered
      · exact hentered
  · rw [react_register_booth]
    split
    · exact hslot
    · split
      · exact (hslot.register hne).offerNext m.now
      · exact hslot.register hne

/-- Two more visitors wait while the first two are inside. -/
def fourVisitors : List (Moment × Input) :=
  threeVisitors.take 4 ++ [(⟨⟨20⟩, 1⟩, .message ⟨7⟩ .registerRequest 0 0)]

/-- One of those inside leaves, and the second waiter asks once more. -/
def slotFreed : List (Moment × Input) :=
  [(⟨⟨30⟩, 2⟩, .message ⟨5⟩ .exitRequest 0 0), (⟨⟨40⟩, 3⟩, .message ⟨7⟩ .registerRequest 0 0)]

/-- The slot that is freed is offered to the first waiter and not to the second one, who can neither take
it nor keep the first one from taking it. -/
theorem run_no_overtaking_fourVisitors :
    let full := ((ofRules ⟨1⟩ .brisk).run fourVisitors).1
    let freed := ((ofRules ⟨1⟩ .brisk).run (fourVisitors ++ slotFreed)).1
    let refused := (freed.react ⟨⟨50⟩, 4⟩ (.message ⟨7⟩ .registerRequest 0 0)).1.booth
    let taken := (freed.react ⟨⟨50⟩, 4⟩ (.message ⟨6⟩ .registerRequest 0 0)).1.booth
    full.booth.waiting = [⟨6⟩, ⟨7⟩] ∧ (⟨7⟩, .queueReady) ∉ Action.sent (full.run slotFreed).2 ∧
      (full.react ⟨⟨30⟩, 2⟩ (.message ⟨5⟩ .exitRequest 0 0)).1.booth.OffersTo ⟨6⟩ ⟨30⟩ ∧
      freed.booth.HasSlot ⟨6⟩ ∧ refused.HasSlot ⟨6⟩ ∧
      taken.active.length + freed.booth.ahead ⟨6⟩ ≤ taken.capacity := by
  intro full freed refused taken
  obtain ⟨-, hoffers, horder⟩ := run_no_overtaking ⟨1⟩ .brisk fourVisitors
  obtain ⟨hrequest, -, -⟩ := run_no_overtaking ⟨1⟩ .brisk (fourVisitors ++ slotFreed)
  have hwaits : ∀ part ∈ slotFreed.inits, ⟨6⟩ ∈ (full.run part).1.booth.waiting := by decide
  have hslot : freed.booth.HasSlot ⟨6⟩ := (Booth.hasSlot_iff _ _).mpr (by decide)
  refine ⟨by decide, horder ⟨6⟩ ⟨7⟩ slotFreed ?_ fun part hpart => ?_, hoffers _ _ _ ?_, hslot, ?_, ?_⟩
  · change full.booth.waiting.idxOf ⟨6⟩ < full.booth.waiting.idxOf ⟨7⟩
    decide
  · exact hwaits part ((List.mem_inits part slotFreed).mpr hpart)
  · decide
  · exact (hrequest _ _ 0 0).2 ⟨6⟩ (by decide) hslot
  · exact (hrequest _ _ 0 0).1 true (by decide)

end Host

end BoothFloor
