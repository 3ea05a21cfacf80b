import BoothFloor.Proofs.Host.Register

/-!
# A free slot is offered, an offered slot is free

Only some of a host's reactions hand a slot on: after an exit, after an admission from the queue,
after the holder of an offer has left and at a sweep. In the other reactions the slots reserved for
the waiters ahead keep the booth as it was: an offer stands exactly while somebody waits and a slot
is free, and it stands until its holder has left the queue.
-/

namespace BoothFloor

namespace Booth

/-- While an offer stands, there is a slot for its holder. -/
def Backed (b : Booth) : Prop := b.offer.isSome = true → b.active.length < b.capacity

/-- An offer stands exactly while somebody waits and a slot is free. -/
def Prompt (b : Booth) : Prop := b.offer.isSome = true ↔ b.waiting ≠ [] ∧ b.active.length < b.capacity

/-- A booth that offers its slots promptly has a slot for each offer. -/
theorem Prompt.backed {b : Booth} (h : b.Prompt) : b.Backed := fun ho => (h.mp ho).2

/-- Nothing is offered by a booth that has just been opened. -/
theorem prompt_ofRules (id : NodeId) (r : Rules) : (ofRules id r).Prompt := by
  simp [Prompt, ofRules, opened]

/-- Somebody waits while an offer stands. -/
theorem Orderly.waiting_ne_nil {b : Booth} (h : b.Orderly) (ho : b.offer.isSome = true) :
    b.waiting ≠ [] := by
  obtain ⟨o, ho⟩ := Option.isSome_iff_exists.mp ho
  exact List.ne_nil_of_mem (h.offer_mem ho)

/-- Handing a free slot on makes a booth prompt whose standing offer, if any, is backed. -/
theorem Orderly.prompt_offerNext {b : Booth} (h : b.Orderly) (hbacked : b.Backed) (now : Instant) :
    (b.offerNext now).2.Prompt := by
  rcases b.offerNext_cases now with ⟨head, rest, hwait, -, hslot, heq⟩ | ⟨hidle, heq⟩ <;> rw [heq]
  · simp [Prompt, setOffer, hwait, hslot]
  · refine ⟨fun ho => ⟨h.waiting_ne_nil ho, hbacked ho⟩, fun ⟨hwait, hslot⟩ => ?_⟩
    rcases hidle with ho | hfull | hnil
    · exact ho
    · exact absurd hslot (Nat.not_lt.mpr hfull)
    · exact absurd hnil hwait

/-- A newcomer is admitted beside a full count of reserved slots, so that the offer stays backed. -/
theorem Orderly.backed_welcome {b : Booth} (h : b.Orderly) {u : NodeId} (now : Instant)
    (hslot : b.active.length + b.ahead u < b.capacity) : (b.welcome u now).Backed := by
  intro ho
  obtain ⟨o, ho⟩ := Option.isSome_iff_exists.mp ho
  obtain ⟨hoffer, hne⟩ := offer_of_releaseOffer (b := b) ho
  obtain ⟨rest, hrest⟩ := List.head?_eq_some_iff.mp (h.offer_head o hoffer)
  -- the holder is another waiter and stands at the head, so it is ahead of the user
  have hahead : 0 < b.ahead u := by
    rw [ahead_eq, hrest, List.idxOf_cons_ne _ hne]
    exact Nat.succ_pos _
  change (b.active ++ [(⟨u, now⟩ : Session)]).length < b.capacity
  rw [List.length_append, List.length_singleton]
  omega

/-- A user admitted from outside leaves the queue and the offer as they were. -/
theorem Prompt.welcome {b : Booth} (h : b.Prompt) (horderly : b.Orderly) {u : NodeId} (now : Instant)
    (hwait : u ∉ b.waiting) (hslot : b.active.length + b.ahead u < b.capacity) :
    (b.welcome u now).Prompt := by
  have hnone : b.isOffered u = false := by
    rw [Bool.eq_false_iff, ne_eq, isOffered_iff]
    rintro ⟨o, ho, rfl⟩
    exact hwait (horderly.offer_mem ho)
  rw [ahead_eq, List.idxOf_of_notMem hwait] at hslot
  have hqueue : b.waiting ≠ [] → 0 < b.waiting.length := List.length_pos_iff.mpr
  unfold Prompt at h ⊢
  simp only [Booth.welcome, hnone, List.erase_of_not_mem hwait, List.length_append,
    List.length_singleton, Bool.false_eq_true, if_false, h]
  constructor
  · rintro ⟨hne, _⟩
    have := hqueue hne
    exact ⟨hne, by omega⟩
  · rintro ⟨hne, _⟩
    exact ⟨hne, by omega⟩

/-- A newcomer joins the queue of a booth whose slots are all taken or reserved. -/
theorem Prompt.join {b : Booth} (h : b.Prompt) {u : NodeId}
    (hfull : b.capacity ≤ b.active.length + b.waiting.length) :
    ({ b with waiting := b.waiting ++ [u] } : Booth).Prompt := by
  unfold Prompt at h ⊢
  have hqueue : b.active.length < b.capacity → b.waiting ≠ [] := by
    rintro hslot hnil
    rw [hnil] at hfull
    exact absurd hslot (Nat.not_lt_of_le hfull)
  simp only [h, ne_eq, List.append_eq_nil_iff, List.cons_ne_self, and_false, not_false_eq_true,
    true_and]
  exact ⟨fun hboth => hboth.2, fun hslot => ⟨hqueue hslot, hslot⟩⟩

/-- Who leaves the queue without an offer leaves the head and the slots as they were. -/
theorem Prompt.leaveQueue {b : Booth} (h : b.Prompt) (horderly : b.Orderly) {u : NodeId}
    (hnone : b.isOffered u = false) : (b.leaveQueue u).2.Prompt := by
  change ((b.removeWaiting u).releaseOffer u).Prompt
  have hnone' : (b.removeWaiting u).isOffered u = false := hnone
  rw [releaseOffer_eq, hnone']
  unfold Prompt at h ⊢
  simp only [removeWaiting, Bool.false_eq_true, if_false]
  constructor
  · intro ho
    obtain ⟨o, hoffer⟩ := Option.isSome_iff_exists.mp ho
    have hne : o.user ≠ u := fun heq => by
      simp [(isOffered_iff b u).mpr ⟨o, hoffer, heq⟩] at hnone
    exact ⟨List.ne_nil_of_mem (List.mem_of_head? (head?_erase_of_ne (horderly.offer_head o hoffer) hne)),
      (h.mp ho).2⟩
  · rintro ⟨hne, hslot⟩
    refine h.mpr ⟨fun hnil => hne ?_, hslot⟩
    rw [hnil, List.erase_nil]

/-- A reaction to a request to register leaves the booth prompt. -/
theorem Prompt.register {b : Booth} (h : b.Prompt) (horderly : b.Orderly) (u : NodeId) (now : Instant) :
    (if (b.register u now).1 = .admitted true then ((b.register u now).2.offerNext now).2
      else (b.register u now).2).Prompt := by
  have hjudged := register_judged b u now
  generalize b.register u now = outcome at hjudged
  cases hjudged with
  | joins _ _ _ hfull => exact h.join hfull
  | enters _ hnew hslot hline =>
    have hwelcome := horderly.welcome now (horderly.agrees.not_mem hnew) (by omega) hline
    by_cases hwait : b.isWaiting u = true
    · simp only [hwait, if_true]
      exact hwelcome.prompt_offerNext (horderly.backed_welcome now hslot) now
    · simp only [hwait, Verdict.admitted.injEq]
      exact h.welcome horderly now (mt (isWaiting_iff b u).mpr hwait) hslot
  | _ => exact h

/-- Fewer sessions back the same offer. -/
theorem Backed.of_active_le {b : Booth} (h : b.Backed) {sessions : List Session}
    (hle : sessions.length ≤ b.active.length) : ({ b with active := sessions } : Booth).Backed :=
  fun ho => Nat.lt_of_le_of_lt hle (h ho)

/-- A reaction to a departure from the queue leaves the booth prompt. -/
theorem Prompt.depart {b : Booth} (h : b.Prompt) (horderly : b.Orderly) (u : NodeId) (now : Instant) :
    (if (b.leaveQueue u).1.offerReleased then ((b.leaveQueue u).2.offerNext now).2
      else (b.leaveQueue u).2).Prompt := by
  split
  · next hreleased =>
    have hoffered : b.isOffered u = true := hreleased
    refine (horderly.leaveQueue u).prompt_offerNext ?_ now
    change ((b.removeWaiting u).releaseOffer u).Backed
    have hoffered' : (b.removeWaiting u).isOffered u = true := hoffered
    rw [releaseOffer_eq, hoffered']
    intro hsome
    cases hsome
  · next hkept => exact h.leaveQueue horderly (Bool.eq_false_iff.mpr hkept)

/-- Withdrawing an overdue offer leaves no offer without a slot. -/
theorem Backed.sweepOffer {b : Booth} (h : b.Backed) (now : Instant) (limit : Span) :
    (b.sweepOffer now limit).2.Backed := by
  rcases b.sweepOffer_cases now limit with ⟨o, -, -, heq⟩ | heq <;> rw [heq]
  · intro hsome
    cases hsome
  · exact h

/-- A sweep leaves the booth prompt. -/
theorem Prompt.sweep {b : Booth} (h : b.Prompt) (horderly : b.Orderly) (now : Instant)
    (sessions offer : Span) :
    (((b.sweepSessions now sessions).2.sweepOffer now offer).2.offerNext now).2.Prompt := by
  refine ((horderly.sweepSessions now sessions).sweepOffer now offer).prompt_offerNext ?_ now
  refine Backed.sweepOffer ?_ now offer
  rw [horderly.sweepSessions_eq]
  exact h.backed.of_active_le (List.length_filter_le _ _)

/-- An offer still stands, or it is settled: its holder waits no longer. -/
def Settles (b : Booth) (o : Offer) : Prop := b.offer = some o ∨ o.user ∉ b.waiting

/-- Handing a free slot on overrides no offer. -/
theorem Settles.offerNext {b : Booth} {o : Offer} (h : b.Settles o) (now : Instant) :
    (b.offerNext now).2.Settles o := by
  rcases b.offerNext_cases now with ⟨head, rest, -, hnone, -, heq⟩ | ⟨-, heq⟩ <;> rw [heq]
  · rcases h with ho | hgone
    · exact absurd (hnone.symm.trans ho) nofun
    · exact Or.inr hgone
  · exact h

/-- Judging a request overrides no offer. -/
theorem Orderly.settles_register {b : Booth} (h : b.Orderly) {o : Offer} (ho : b.offer = some o)
    (u : NodeId) (now : Instant) : (b.register u now).2.Settles o := by
  have hjudged := register_judged b u now
  generalize b.register u now = outcome at hjudged
  cases hjudged with
  | enters =>
    by_cases hu : o.user = u
    · exact Or.inr (hu ▸ h.waiting_nodup.not_mem_erase)
    · have hother : b.isOffered u = false := by
        rw [Bool.eq_false_iff, ne_eq, isOffered_iff]
        rintro ⟨o', ho', rfl⟩
        exact hu (congrArg Offer.user (Option.some.inj (ho.symm.trans ho')))
      exact Or.inl (by simp only [Booth.welcome, hother, ho, Bool.false_eq_true, if_false])
  | _ => exact Or.inl ho

/-- A departure from the queue overrides no offer. -/
theorem Orderly.settles_leaveQueue {b : Booth} (h : b.Orderly) {o : Offer} (ho : b.offer = some o)
    (u : NodeId) : (b.leaveQueue u).2.Settles o := by
  change ((b.removeWaiting u).releaseOffer u).Settles o
  rw [releaseOffer_eq]
  by_cases hu : o.user = u
  · exact Or.inr (hu ▸ h.waiting_nodup.not_mem_erase)
  · have hother : (b.removeWaiting u).isOffered u = false := by
      rw [Bool.eq_false_iff, ne_eq, isOffered_iff]
      rintro ⟨o', ho', rfl⟩
      exact hu (congrArg Offer.user (Option.some.inj (ho.symm.trans ho')))
    exact Or.inl (by rw [hother]; exact ho)

/-- A sweep of the offer withdraws it only together with its holder. -/
theorem Orderly.settles_sweepOffer {b : Booth} (h : b.Orderly) {o : Offer} (ho : b.offer = some o)
    (now : Instant) (limit : Span) : (b.sweepOffer now limit).2.Settles o := by
  rw [Booth.sweepOffer, ho]
  dsimp only
  split
  · exact Or.inr h.waiting_nodup.not_mem_erase
  · exact Or.inl ho

end Booth

namespace Host

/-- Every reaction leaves the booth prompt. -/
theorem react_prompt {h : Host} (horderly : h.booth.Orderly) (hprompt : h.booth.Prompt) (m : Moment)
    (i : Input) : (h.react m i).1.booth.Prompt := by
  cases i with
  | start => exact hprompt
  | timer => exact hprompt
  | intent i => cases i <;> exact hprompt
  | tick =>
    change (h.onTick m).1.booth.Prompt
    rw [onTick_fst]
    split
    · rw [sweep_fst]
      exact hprompt.sweep horderly _ _ _
    · exact hprompt
  | message source message =>
    change (h.onMessage m.now source message).1.booth.Prompt
    rw [onMessage_fst]
    split
    · exact hprompt
    cases message with
    | registerRequest =>
      rw [onRegister_fst]
      exact hprompt.register horderly source m.now
    | exitRequest =>
      rw [onExit_fst]
      dsimp only
      split
      · refine (horderly.removeActive source).prompt_offerNext ?_ m.now
        exact hprompt.backed.of_active_le List.eraseP_sublist.length_le
      · exact hprompt
    | queueLeave =>
      rw [onQueueLeave_fst]
      exact hprompt.depart horderly source m.now
    | _ => exact hprompt

/-- Every reaction leaves an offer standing or has settled it. -/
theorem react_settles {h : Host} (horderly : h.booth.Orderly) {o : Offer} (ho : h.booth.offer = some o)
    (m : Moment) (i : Input) : (h.react m i).1.booth.Settles o := by
  cases i with
  | start => exact Or.inl ho
  | timer => exact Or.inl ho
  | intent i => cases i <;> exact Or.inl ho
  | tick =>
    change (h.onTick m).1.booth.Settles o
    rw [onTick_fst]
    split
    · rw [sweep_fst]
      have hsessions := horderly.sweepSessions m.now h.rules.sessionDuration
      have hstands : (h.booth.sweepSessions m.now h.rules.sessionDuration).2.offer = some o := by
        rw [Booth.sweepSessions_snd, ho]
      exact (hsessions.settles_sweepOffer hstands _ _).offerNext m.now
    · exact Or.inl ho
  | message source message =>
    change (h.onMessage m.now source message).1.booth.Settles o
    rw [onMessage_fst]
    split
    · exact Or.inl ho
    cases message with
    | registerRequest =>
      rw [onRegister_fst]
      dsimp only
      split
      · exact (horderly.settles_register ho source m.now).offerNext m.now
      · exact horderly.settles_register ho source m.now
    | exitRequest =>
      rw [onExit_fst]
      dsimp only
      split
      · have hstands : (h.booth.removeActive source).2.Settles o := Or.inl ho
        exact hstands.offerNext m.now
      · exact Or.inl ho
    | queueLeave =>
      rw [onQueueLeave_fst]
      dsimp only
      split
      · exact (horderly.settles_leaveQueue ho source).offerNext m.now
      · exact horderly.settles_leaveQueue ho source
    | _ => exact Or.inl ho

/-- The booth of every run offers its slots promptly. -/
theorem run_prompt {h : Host} (horderly : h.booth.Orderly) (hprompt : h.booth.Prompt)
    (events : List (Moment × Input)) : (h.run events).1.booth.Prompt := by
  have hboth : (h.run events).1.booth.Orderly ∧ (h.run events).1.booth.Prompt := by
    apply runWith_keeps (P := fun h : Host => h.booth.Orderly ∧ h.booth.Prompt) ⟨horderly, hprompt⟩
    rintro h m i _ ⟨ho, hp⟩
    exact ⟨react_orderly ho m i, react_prompt ho hp m i⟩
  exact hboth.2

/-- Between any two reactions of a run an offer stands exactly while somebody waits and a slot is
free, and it is made out to the head of the queue. Whatever comes next, the offer stands unchanged
and its slot is free until its holder has left the queue. -/
theorem run_offer_iff_free_slot (id : NodeId) (r : Rules) (events : List (Moment × Input)) :
    let h := ((ofRules id r).run events).1
    (h.booth.offer.isSome = true ↔ h.booth.waiting ≠ [] ∧ h.booth.active.length < h.booth.capacity) ∧
      (∀ o, h.booth.offer = some o → h.booth.waiting.head? = some o.user) ∧
      ∀ m i o, h.booth.offer = some o →
        let next := (h.react m i).1.booth
        next.offer = some o ∧ next.active.length < next.capacity ∨ o.user ∉ next.waiting := by
  intro h
  have horderly : h.booth.Orderly := run_orderly (Booth.orderly_ofRules id r) events
  have hprompt : h.booth.Prompt :=
    run_prompt (Booth.orderly_ofRules id r) (Booth.prompt_ofRules id r) events
  refine ⟨hprompt, horderly.offer_head, fun m i o ho => ?_⟩
  rcases react_settles horderly ho m i with hstands | hgone
  · exact Or.inl ⟨hstands, (react_prompt horderly hprompt m i).backed (by rw [hstands]; rfl)⟩
  · exact Or.inr hgone

/-- A slot that was freed while the third visitor waited is offered to it, and a fourth one who asks
for it meanwhile has to wait behind. -/
theorem run_offer_iff_free_slot_threeVisitors :
    let h := ((ofRules ⟨1⟩ .brisk).run threeVisitors).1
    let next := (h.react ⟨⟨40⟩, 3⟩ (.message ⟨7⟩ .registerRequest 0 0)).1.booth
    h.booth.offer = some ⟨⟨6⟩, ⟨30⟩⟩ ∧ h.booth.waiting.head? = some ⟨6⟩ ∧ next.waiting = [⟨6⟩, ⟨7⟩] ∧
      next.offer = some ⟨⟨6⟩, ⟨30⟩⟩ ∧ next.active.length < next.capacity := by
  intro h next
  obtain ⟨_, hhead, hkept⟩ := run_offer_iff_free_slot ⟨1⟩ .brisk threeVisitors
  have hoffer : h.booth.offer = some ⟨⟨6⟩, ⟨30⟩⟩ := by decide
  have hqueue : next.waiting = [⟨6⟩, ⟨7⟩] := by decide
  refine ⟨hoffer, hhead _ hoffer, hqueue, ?_⟩
  rcases hkept _ _ _ hoffer with hstands | hgone
  · exact hstands
  · exact absurd (hqueue ▸ List.mem_cons_self) hgone

end Host

end BoothFloor
