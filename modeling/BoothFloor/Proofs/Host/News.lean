import BoothFloor.Proofs.Host.Notices
import BoothFloor.Proofs.Host.Queue

/-!
# What waiters know of their place

A waiter learns its place from the answer to its request and from the news of the queue. Whatever a host
does, it tells a waiter the place where it stands now, or it says nothing and leaves the waiter where it
stood before (`Informs`). This composes along a run, so the last word to a waiter is true. The news of
place zero goes only to the holder of an offer that has expired, who waits no longer.
-/

namespace BoothFloor

/-- The place in a queue, and the length of it, that a message tells. -/
def Message.place? : Message → Option (UInt8 × UInt8)
  | queueInfo position total => some (position, total)
  | queueUpdate position total => some (position, total)
  | _ => none

/-- The last place that some messages tell a user. -/
def lastWord (w : NodeId) (letters : List (NodeId × Message)) : Option (UInt8 × UInt8) :=
  (letters.filterMap fun x => if x.1 = w then x.2.place? else none).getLast?

section LastWord

variable {w : NodeId} {letters : List (NodeId × Message)} {place : UInt8 × UInt8}

/-- A later word replaces an earlier one. -/
theorem lastWord_append (w : NodeId) (earlier later : List (NodeId × Message)) :
    lastWord w (earlier ++ later) = (lastWord w later).or (lastWord w earlier) := by
  rw [lastWord, List.filterMap_append, List.getLast?_append]
  rfl

/-- Messages that tell a user no place say no word. -/
theorem lastWord_eq_none (hquiet : ∀ msg, (w, msg) ∈ letters → msg.place? = none) :
    lastWord w letters = none := by
  rw [lastWord, List.getLast?_eq_none_iff, List.filterMap_eq_nil_iff]
  rintro ⟨v, msg⟩ hmem
  by_cases hv : v = w
  · subst hv
    simpa using hquiet msg hmem
  · simp [hv]

/-- Messages that tell a user one place only, and do tell it, say that one. -/
theorem lastWord_eq_some {msg : Message} (hmem : (w, msg) ∈ letters) (hplace : msg.place? = some place)
    (honly : ∀ msg p, (w, msg) ∈ letters → msg.place? = some p → p = place) :
    lastWord w letters = some place := by
  have hspoken : lastWord w letters ≠ none := by
    rw [lastWord, ne_eq, List.getLast?_eq_none_iff]
    exact List.ne_nil_of_mem (List.mem_filterMap.mpr ⟨(w, msg), hmem, by simpa using hplace⟩)
  obtain ⟨p, hp⟩ := Option.ne_none_iff_exists'.mp hspoken
  obtain ⟨⟨v, said⟩, hsaid, htold⟩ := List.mem_filterMap.mp (List.mem_of_getLast? hp)
  dsimp only at htold
  split at htold
  · next hv =>
    subst hv
    rw [hp, honly said p hsaid htold]
  · cases htold

end LastWord

/-- What a user is told is its place in the queue, counted from one and within the total. -/
structure PlaceIn (queue : List NodeId) (w : NodeId) (place : UInt8 × UInt8) : Prop where
  position : place.1.toNat = queue.idxOf w + 1
  within : place.1.toNat ≤ place.2.toNat

/-- The place of a waiter in a queue that fits one byte is told as it is. -/
theorem placeIn_clampByte {queue : List NodeId} {w : NodeId} (hw : w ∈ queue) (hle : queue.length ≤ 255) :
    PlaceIn queue w (clampByte (queue.idxOf w + 1), clampByte queue.length) := by
  have hplace : queue.idxOf w < queue.length := List.idxOf_lt_length_iff.mpr hw
  have hposition : (clampByte (queue.idxOf w + 1)).toNat = queue.idxOf w + 1 :=
    Host.clampByte_toNat (by omega)
  refine ⟨hposition, ?_⟩
  rw [hposition, Host.clampByte_toNat hle]
  exact hplace

/-- While one queue becomes another, some messages keep its waiters informed: each of them has been told
its new place, or has been told nothing and stands where it stood. -/
def Informs (letters : List (NodeId × Message)) (before after : List NodeId) : Prop :=
  ∀ w ∈ after, (∃ place, lastWord w letters = some place ∧ PlaceIn after w place) ∨
    (lastWord w letters = none ∧ w ∈ before ∧ before.idxOf w = after.idxOf w)

/-- Nothing need be said while the queue stays as it is. -/
theorem Informs.of_quiet {letters : List (NodeId × Message)} (hquiet : ∀ x ∈ letters, x.2.place? = none)
    (queue : List NodeId) : Informs letters queue queue :=
  fun _ hw => .inr ⟨lastWord_eq_none fun _ hmem => hquiet _ hmem, hw, rfl⟩

/-- Waiters who are kept informed twice are kept informed throughout. -/
theorem Informs.trans {earlier later : List (NodeId × Message)} {first second third : List NodeId}
    (hearlier : Informs earlier first second) (hlater : Informs later second third) :
    Informs (earlier ++ later) first third := by
  intro w hw
  rw [lastWord_append]
  rcases hlater w hw with ⟨place, htold, hplace⟩ | ⟨hquiet, hbefore, hstill⟩
  · exact .inl ⟨place, by rw [htold, Option.some_or], hplace⟩
  · rw [hquiet, Option.none_or]
    rcases hearlier w hbefore with ⟨place, htold, hplace⟩ | ⟨hquiet, hfirst, hstood⟩
    · exact .inl ⟨place, htold, ⟨hstill ▸ hplace.position, hplace.within⟩⟩
    · exact .inr ⟨hquiet, hfirst, hstood.trans hstill⟩

/-- The answer to a user that has to wait tells it its place, if all the others stand where they stood. -/
theorem informs_newcomer {before after : List NodeId} {u : NodeId} (hu : u ∈ after)
    (hle : after.length ≤ 255)
    (hothers : ∀ w ∈ after, w ≠ u → w ∈ before ∧ before.idxOf w = after.idxOf w) :
    Informs [(u, .registerResponse false .fullWaiting),
      (u, .queueInfo (clampByte (after.idxOf u + 1)) (clampByte after.length))] before after := by
  intro w hw
  by_cases heq : w = u
  · subst heq
    exact .inl ⟨_, by simp [lastWord, Message.place?], placeIn_clampByte hw hle⟩
  · exact .inr ⟨lastWord_eq_none fun msg hmem => by simp [heq] at hmem, hothers w hw heq⟩

namespace Booth

variable {b : Booth} {u w : NodeId} {now : Instant}

/-- The news of the queue tells each waiter its place. -/
theorem lastWord_queueUpdates (hnodup : b.waiting.Nodup) (hw : w ∈ b.waiting) :
    lastWord w b.queueUpdates =
      some (clampByte (b.waiting.idxOf w + 1), clampByte b.waiting.length) := by
  have htold : (w, .queueUpdate (clampByte (b.waiting.idxOf w + 1)) (clampByte b.waiting.length)) ∈
      b.queueUpdates := by
    rw [queueUpdates, List.mem_mapIdx]
    exact ⟨b.waiting.idxOf w, List.idxOf_lt_length_iff.mpr hw, by rw [List.getElem_idxOf]⟩
  refine lastWord_eq_some htold rfl fun msg p hmem hp => ?_
  rw [queueUpdates, List.mem_mapIdx] at hmem
  obtain ⟨i, hi, heq⟩ := hmem
  obtain ⟨rfl, rfl⟩ := Prod.mk.inj heq
  rw [hnodup.idxOf_getElem]
  exact (Option.some.inj hp).symm

/-- After the news of the queue every waiter is informed, whatever was said and done before. -/
theorem informs_queueUpdates (hnodup : b.waiting.Nodup) (hle : b.waiting.length ≤ 255)
    (letters : List (NodeId × Message)) (before : List NodeId) :
    Informs (letters ++ b.queueUpdates) before b.waiting := by
  intro w hw
  refine .inl ⟨_, ?_, placeIn_clampByte hw hle⟩
  rw [lastWord_append, lastWord_queueUpdates hnodup hw, Option.some_or]

/-- An offer tells nobody a place. -/
theorem offerLetters_quiet (b : Booth) (now : Instant) : ∀ x ∈ b.offerLetters now, x.2.place? = none := by
  rintro ⟨v, msg⟩ hmem
  rw [(mem_offerLetters hmem).2]
  rfl

/-- The answer to a request to register keeps the waiters informed. -/
theorem Orderly.register_informs (h : b.Orderly) (hle : b.maxUsers ≤ 255) (u : NodeId) (now : Instant) :
    Informs (answerLetters u now (b.register u now)) b.waiting (b.register u now).2.waiting := by
  have hjudged := register_judged b u now
  have horderly := h.register u now
  have hqueue := h.waiting_le
  generalize b.register u now = outcome at hjudged horderly
  cases hjudged with
  | confirmed | refused | turnedAway | unlisted =>
    exact .of_quiet (by simp [answerLetters, Message.place?]) b.waiting
  | stays _ _ hwait => exact informs_newcomer hwait (by omega) fun w hw _ => ⟨hw, rfl⟩
  | joins _ _ hwait _ hroom =>
    -- the newcomer stands behind everybody else, so nobody else need be told
    have hnewcomer : Informs _ b.waiting (b.waiting ++ [u]) :=
      informs_newcomer (u := u) (by simp) (by rw [List.length_append, List.length_singleton]; omega)
        fun w hw hne => by
          have hstays : w ∈ b.waiting := by simpa [hne] using hw
          exact ⟨hstays, (List.idxOf_append_of_mem hstays).symm⟩
    rw [List.idxOf_append_of_notMem hwait, List.idxOf_cons_self, List.length_append,
      List.length_singleton] at hnewcomer
    exact hnewcomer
  | enters =>
    cases hwait : b.isWaiting u with
    | false =>
      have hstill : (b.welcome u now).waiting = b.waiting :=
        List.erase_of_not_mem (mt (isWaiting_iff b u).mpr (by simp [hwait]))
      rw [hstill]
      exact .of_quiet (by simp [answerLetters, Message.place?]) b.waiting
    | true =>
      have hshorter : (b.welcome u now).waiting.length ≤ b.waiting.length := List.length_erase_le
      have hnews : Informs ([(u, .registerResponse true .success)] ++ (b.welcome u now).queueUpdates)
          b.waiting (b.welcome u now).waiting :=
        informs_queueUpdates horderly.waiting_nodup (Nat.le_trans hshorter (by omega)) _ _
      exact hnews.trans (.of_quiet (offerLetters_quiet _ now) _)

/-- The news of a departure from the queue keeps the waiters informed. -/
theorem Orderly.leaveQueue_informs (h : b.Orderly) (hle : b.maxUsers ≤ 255) (u : NodeId) (now : Instant) :
    Informs ((if u ∈ b.waiting then (b.leaveQueue u).2.queueUpdates else []) ++
        if b.isOffered u then (b.leaveQueue u).2.offerLetters now else [])
      b.waiting (b.leaveQueue u).2.waiting := by
  have hshorter : (b.leaveQueue u).2.waiting.length ≤ b.waiting.length := by
    rw [leaveQueue_waiting]
    exact List.length_erase_le
  have hqueue := h.waiting_le
  have hnews : Informs (if u ∈ b.waiting then (b.leaveQueue u).2.queueUpdates else [])
      b.waiting (b.leaveQueue u).2.waiting := by
    split
    · exact informs_queueUpdates (h.leaveQueue u).waiting_nodup (by omega) [] _
    · next hout =>
      rw [leaveQueue_waiting, List.erase_of_not_mem hout]
      exact .of_quiet (by simp) _
  refine hnews.trans (.of_quiet ?_ _)
  split
  · exact offerLetters_quiet _ now
  · simp

/-- The news of an offer withdrawn keeps the waiters informed. -/
theorem Orderly.sweepOffer_informs (h : b.Orderly) (hle : b.maxUsers ≤ 255) (now : Instant) (limit : Span) :
    Informs (b.withdrawalLetters now limit) b.waiting (b.sweepOffer now limit).2.waiting := by
  have horderly := h.sweepOffer now limit
  have hqueue := h.waiting_le
  unfold withdrawalLetters
  rcases b.sweepOffer_cases now limit with ⟨o, -, -, heq⟩ | heq
  · rw [heq] at horderly ⊢
    have hshorter : (b.waiting.erase o.user).length ≤ b.waiting.length := List.length_erase_le
    exact informs_queueUpdates horderly.waiting_nodup
      (show (b.waiting.erase o.user).length ≤ 255 by omega) [(o.user, .queueUpdate 0 0)] _
  · rw [heq]
    exact .of_quiet (by simp) _

/-- Place zero is the last word to whoever loses an offer, and it waits no longer. -/
theorem Orderly.withdrawal_dismisses (h : b.Orderly) {limit : Span}
    (hover : (b.sweepOffer now limit).1 = some u) :
    (u, .queueUpdate 0 0) ∈ b.withdrawalLetters now limit ∧
      lastWord u (b.withdrawalLetters now limit) = some (0, 0) ∧
      u ∉ (b.sweepOffer now limit).2.waiting := by
  unfold withdrawalLetters
  rcases b.sweepOffer_cases now limit with ⟨o, -, -, heq⟩ | heq
  · rw [heq] at hover ⊢
    obtain rfl := Option.some.inj hover
    have hgone : o.user ∉ b.waiting.erase o.user := h.waiting_nodup.not_mem_erase
    refine ⟨List.mem_cons_self, lastWord_eq_some List.mem_cons_self rfl fun msg p hmem hp => ?_, hgone⟩
    -- the news that follows goes to those who still wait
    rcases List.mem_cons.mp hmem with hfirst | hrest
    · obtain ⟨-, rfl⟩ := Prod.mk.inj hfirst
      exact (Option.some.inj hp).symm
    · exact absurd (mem_queueUpdates hrest).1 hgone
  · rw [heq] at hover
    cases hover

end Booth

namespace Host

variable {h : Host} {m : Moment} {i : Input} {u : NodeId}

/-- The periodic announcement tells nobody a place. -/
theorem broadcast_quiet (tick : Nat) (h : Host) :
    ∀ x ∈ Action.sent (broadcast tick h).2, x.2.place? = none := by
  rw [broadcast_sent]
  split <;> simp [Message.place?]

/-- A tick keeps the waiters informed. -/
theorem onTick_informs (horderly : h.booth.Orderly) (hle : h.booth.maxUsers ≤ 255) (m : Moment) :
    Informs (Action.sent (h.onTick m).2) h.booth.waiting (h.onTick m).1.booth.waiting := by
  rw [onTick_sent]
  refine Informs.trans ?_ (.of_quiet (broadcast_quiet _ _) _)
  rw [onTick_fst]
  split
  · rw [sweep_sent, sweep_fst, Booth.offerNext_waiting]
    have hswept := horderly.sweepSessions m.now h.rules.sessionDuration
    have hsame := h.booth.sweepSessions_sameFixtures m.now h.rules.sessionDuration
    have halerts : Informs ((h.booth.expired m.now h.rules.sessionDuration).map (·, Message.timeoutAlert))
        h.booth.waiting (h.booth.sweepSessions m.now h.rules.sessionDuration).2.waiting := by
      rw [Booth.sweepSessions_waiting]
      exact .of_quiet (by simp [Message.place?]) _
    have hwithdrawal := hswept.sweepOffer_informs (hsame.maxUsers ▸ hle) m.now h.rules.queueReadyTimeout
    exact (halerts.trans hwithdrawal).trans (.of_quiet (Booth.offerLetters_quiet _ m.now) _)
  · exact .of_quiet (by simp) _

/-- The answer to a message keeps the waiters informed. -/
theorem onMessage_informs (horderly : h.booth.Orderly) (hle : h.booth.maxUsers ≤ 255) (now : Instant)
    (source : NodeId) (message : Message) :
    Informs (Action.sent (h.onMessage now source message).2) h.booth.waiting
      (h.onMessage now source message).1.booth.waiting := by
  rw [onMessage_sent, onMessage_fst]
  split
  · exact .of_quiet (by simp) _
  · cases message with
    | registerRequest =>
      simp only [onRegister_sent, onRegister_fst]
      have hanswer := horderly.register_informs hle source now
      split
      · rwa [Booth.offerNext_waiting]
      · exact hanswer
    | exitRequest =>
      simp only [onExit_sent, onExit_fst, Booth.isSome_removeActive]
      split
      · rw [Booth.offerNext_waiting]
        refine .of_quiet ?_ h.booth.waiting
        rw [List.forall_mem_cons]
        exact ⟨rfl, Booth.offerLetters_quiet _ now⟩
      · exact .of_quiet (by simp [Message.place?]) _
    | queueLeave =>
      simp only [onQueueLeave_sent, onQueueLeave_fst]
      have hqueue : (if (h.booth.leaveQueue source).1.offerReleased
          then ((h.booth.leaveQueue source).2.offerNext now).2
          else (h.booth.leaveQueue source).2).waiting = (h.booth.leaveQueue source).2.waiting := by
        split
        · rw [Booth.offerNext_waiting]
        · rfl
      rw [hqueue]
      exact horderly.leaveQueue_informs hle source now
    | chat sender text =>
      simp only [onChat_sent]
      refine .of_quiet (fun x hx => ?_) _
      split at hx
      · obtain ⟨v, -, rfl⟩ := List.mem_map.mp hx
        rfl
      · cases hx
    | _ => exact .of_quiet (by simp [Message.place?]) _

/-- Every reaction keeps the waiters informed. -/
theorem react_informs (horderly : h.booth.Orderly) (hle : h.booth.maxUsers ≤ 255) (m : Moment) (i : Input) :
    Informs (Action.sent (h.react m i).2) h.booth.waiting (h.react m i).1.booth.waiting := by
  cases i with
  | start | timer => exact .of_quiet (by simp [react, announceTo, Message.place?]) _
  | intent i =>
    cases i <;>
      exact .of_quiet (by simp [react, onIntent, Action.sent_map_send, Message.place?]) h.booth.waiting
  | tick => exact onTick_informs horderly hle m
  | message source message => exact onMessage_informs horderly hle m.now source message

/-- A run keeps the waiters informed. -/
theorem run_informs (horderly : h.booth.Orderly) (hle : h.booth.maxUsers ≤ 255)
    (events : List (Moment × Input)) :
    Informs (Action.sent (h.run events).2) h.booth.waiting (h.run events).1.booth.waiting := by
  induction events generalizing h with
  | nil => exact .of_quiet (by simp [run, runWith]) _
  | cons e rest ih =>
    -- the limit of the queue is a fixture, so its length fits one byte after the reaction too
    have hsame : h.booth.SameFixtures (h.react e.1 e.2).1.booth := by
      have hone := h.run_sameFixtures [e]
      rwa [run, runWith_singleton] at hone
    rw [run_cons, Action.sent_append]
    exact (react_informs horderly hle e.1 e.2).trans
      (ih (react_orderly horderly e.1 e.2) (hsame.maxUsers ▸ hle))

/-- The answer to a message reports no offer as expired. -/
theorem not_offerExpired_onMessage {now : Instant} {source : NodeId} {message : Message} :
    .offerExpired u ∉ Action.emitted (h.onMessage now source message).2 := by
  have hoffer (b : Booth) : .offerExpired u ∉ b.offerNotices now := by simp [Booth.offerNotices]
  rw [onMessage_emitted]
  split
  · exact List.not_mem_nil
  · cases message with
    | registerRequest =>
      simp only [onRegister_emitted]
      generalize h.booth.register source now = outcome
      obtain ⟨verdict, after⟩ := outcome
      rcases verdict with (_ | _) | _ | _ | _ | _ <;> simp [Booth.answerNotices, hoffer]
    | exitRequest =>
      simp only [onExit_emitted]
      split <;> simp [hoffer]
    | queueLeave =>
      simp only [onQueueLeave_emitted]
      split <;> simp [hoffer]
    | chat sender text =>
      simp only [onChat_emitted]
      split <;> simp
    | _ => exact List.not_mem_nil

/-- Whoever is reported to lose an offer in a tick is told place zero last, and waits no longer. -/
theorem onTick_dismisses (horderly : h.booth.Orderly)
    (hlost : .offerExpired u ∈ Action.emitted (h.onTick m).2) :
    (u, .queueUpdate 0 0) ∈ Action.sent (h.onTick m).2 ∧
      lastWord u (Action.sent (h.onTick m).2) = some (0, 0) ∧ u ∉ (h.onTick m).1.booth.waiting := by
  rw [onTick_emitted] at hlost
  split at hlost
  · next hdue =>
    have hover : ((h.booth.sweepSessions m.now h.rules.sessionDuration).2.sweepOffer m.now
        h.rules.queueReadyTimeout).1 = some u := by
      simpa [sweep_emitted, Booth.withdrawalNotices, Booth.offerNotices] using hlost
    obtain ⟨htold, hlast, hgone⟩ := (horderly.sweepSessions m.now _).withdrawal_dismisses hover
    have hoffer : lastWord u (((h.booth.sweepSessions m.now h.rules.sessionDuration).2.sweepOffer m.now
        h.rules.queueReadyTimeout).2.offerLetters m.now) = none :=
      lastWord_eq_none fun msg hmem => Booth.offerLetters_quiet _ _ _ hmem
    have hbroadcast : lastWord u (Action.sent (broadcast m.tick (h.onTick m).1).2) = none :=
      lastWord_eq_none fun msg hmem => broadcast_quiet _ _ _ hmem
    rw [onTick_sent, if_pos hdue, sweep_sent]
    refine ⟨?_, ?_, ?_⟩
    · exact List.mem_append_left _ (List.mem_append_left _ (List.mem_append_right _ htold))
    · rw [lastWord_append, lastWord_append, lastWord_append, hbroadcast, hoffer, hlast]
      rfl
    · rw [onTick_fst, if_pos hdue, sweep_fst, Booth.offerNext_waiting]
      exact hgone
  · cases hlost

/-- Whoever is reported to lose an offer is told place zero last, and waits no longer. -/
theorem react_dismisses (horderly : h.booth.Orderly)
    (hlost : .offerExpired u ∈ Action.emitted (h.react m i).2) :
    (u, .queueUpdate 0 0) ∈ Action.sent (h.react m i).2 ∧
      lastWord u (Action.sent (h.react m i).2) = some (0, 0) ∧ u ∉ (h.react m i).1.booth.waiting := by
  cases i with
  | start | timer => simp [react, announceTo] at hlost
  | intent i => cases i <;> simp [react, onIntent] at hlost
  | tick => exact onTick_dismisses horderly hlost
  | message => exact absurd hlost not_offerExpired_onMessage

/-- An offer that has stood too long when a sweep is due is reported to be lost. -/
theorem onTick_offerExpired {o : Offer} (ho : h.booth.offer = some o)
    (hdue : m.tick % h.rules.sweepInterval.toNat = 0)
    (hover : h.rules.queueReadyTimeout < m.now.since o.since) :
    .offerExpired o.user ∈ Action.emitted (h.onTick m).2 := by
  have hstands : (h.booth.sweepSessions m.now h.rules.sessionDuration).2.offer = some o := by
    rw [Booth.sweepSessions_snd, ho]
  have hlost : ((h.booth.sweepSessions m.now h.rules.sessionDuration).2.sweepOffer m.now
      h.rules.queueReadyTimeout).1 = some o.user := by
    rw [Booth.sweepOffer, hstands]
    simp only [if_pos hover]
  rw [onTick_emitted, if_pos hdue, sweep_emitted, Booth.withdrawalNotices, hlost]
  simp

/-- Waiters know their place. Whatever inputs a host is given under valid rules, the last place that it
has told a waiter is the place where the waiter stands, counted from one and within the total. An offer
that has stood too long when a sweep is due is lost, and whoever loses an offer waits no longer and is
told so by place zero, as the last word of that reaction. -/
theorem run_waiters_informed (id : NodeId) (r : Rules) (valid : r.Valid) (events : List (Moment × Input)) :
    let run := (ofRules id r).run events
    let h := run.1
    (∀ w ∈ h.booth.waiting, ∃ position total : UInt8,
      lastWord w (Action.sent run.2) = some (position, total) ∧
        h.booth.position? w = some position.toNat ∧ 1 ≤ position.toNat ∧ position.toNat ≤ total.toNat) ∧
      (∀ m i u, .offerExpired u ∈ Action.emitted (h.react m i).2 →
        (u, .queueUpdate 0 0) ∈ Action.sent (h.react m i).2 ∧
          lastWord u (Action.sent (h.react m i).2) = some (0, 0) ∧ u ∉ (h.react m i).1.booth.waiting) ∧
      ∀ m o, h.booth.offer = some o → m.tick % r.sweepInterval.toNat = 0 →
        r.queueReadyTimeout < m.now.since o.since →
        .offerExpired o.user ∈ Action.emitted (h.react m .tick).2 := by
  intro run h
  have hopened : (ofRules id r).booth.Orderly := Booth.orderly_ofRules id r
  have horderly : h.booth.Orderly := run_orderly hopened events
  have hrules : h.rules = r := run_rules (ofRules id r) events
  refine ⟨fun w hw => ?_, fun m i u => react_dismisses horderly, fun m o ho hdue hover => ?_⟩
  · rcases run_informs hopened valid.bounds.maxUsers_le events w hw with
      ⟨⟨position, total⟩, htold, hplace⟩ | ⟨-, hbefore, -⟩
    · have hposition : position.toNat = h.booth.waiting.idxOf w + 1 := hplace.position
      refine ⟨position, total, htold, ?_, by omega, hplace.within⟩
      rw [Booth.position?_of_mem hw, hposition]
    · exact absurd hbefore List.not_mem_nil
  · exact onTick_offerExpired ho (hrules.symm ▸ hdue) (hrules.symm ▸ hover)

/-- A slot becomes free for the two waiters of `fourVisitors`. -/
def slotOffered : List (Moment × Input) := fourVisitors ++ [(⟨⟨30⟩, 2⟩, .message ⟨5⟩ .exitRequest 0 0)]

/-- When the first waiter lets the offer of that slot expire, it is told place zero, and the second one has
been told that it stands at the head. -/
theorem run_waiters_informed_slotOffered :
    let offered := (ofRules ⟨1⟩ .brisk).run slotOffered
    let lapsed := (ofRules ⟨1⟩ .brisk).run (slotOffered ++ [(⟨⟨2000⟩, 3⟩, .tick)])
    Rules.brisk.Valid ∧ offered.1.booth.offer = some ⟨⟨6⟩, ⟨30⟩⟩ ∧
      (⟨6⟩, .queueUpdate 0 0) ∈ Action.sent (offered.1.react ⟨⟨2000⟩, 3⟩ .tick).2 ∧
      lapsed.1.booth.waiting = [⟨7⟩] ∧ ∃ total, lastWord ⟨7⟩ (Action.sent lapsed.2) = some (1, total) := by
  intro offered lapsed
  have hvalid : Rules.brisk.Valid := by decide
  have hoffer : offered.1.booth.offer = some ⟨⟨6⟩, ⟨30⟩⟩ := by decide
  have hwaiting : lapsed.1.booth.waiting = [⟨7⟩] := by decide
  obtain ⟨-, hdismissed, hlost⟩ := run_waiters_informed ⟨1⟩ .brisk hvalid slotOffered
  obtain ⟨hinformed, -, -⟩ :=
    run_waiters_informed ⟨1⟩ .brisk hvalid (slotOffered ++ [(⟨⟨2000⟩, 3⟩, .tick)])
  obtain ⟨position, total, htold, hplace, -, -⟩ := hinformed ⟨7⟩ (by decide)
  have hfirst : lapsed.1.booth.position? ⟨7⟩ = some (1 : UInt8).toNat := by decide
  obtain rfl : position = 1 := UInt8.toNat_inj.mp (Option.some.inj (hplace.symm.trans hfirst))
  refine ⟨hvalid, hoffer, ?_, hwaiting, total, htold⟩
  exact (hdismissed _ _ _ (hlost ⟨⟨2000⟩, 3⟩ _ hoffer (by decide) (by decide))).1

end Host

end BoothFloor
