import BoothFloor.Proofs.Host.Letters

/-!
# How much a host sends to one user

The messages of a turn that reach one user are paid for by the requests of the turn: a request costs
its own user at most two messages and every other user at most one. A second offer of a slot to the
same user has to be earned, by a leave or a registration of that user; `Booth.unoffered` keeps the
account.
-/

namespace BoothFloor

/-- Whether a message reaches a user, by its id or as one for everyone. -/
def reaches (u : NodeId) (x : NodeId × Message) : Bool := decide (x.1 = u) || x.1.isBroadcast

/-- A message to a user reaches this user and no other. -/
theorem reaches_own {s : NodeId} (hown : s.isBroadcast = false) (u : NodeId) (msg : Message) :
    reaches u (s, msg) = decide (s = u) := by
  simp [reaches, hown]

/-- Messages to different users reach each of these once, and nobody else. -/
theorem countP_reaches {u : NodeId} {letters : List (NodeId × Message)}
    (hnodup : (letters.map Prod.fst).Nodup) (hown : ∀ x ∈ letters, x.1.isBroadcast = false) :
    letters.countP (reaches u) = if u ∈ letters.map Prod.fst then 1 else 0 := by
  have hcount : letters.countP (reaches u) = (letters.map Prod.fst).count u := by
    rw [List.count, List.countP_map]
    refine List.countP_congr fun x hx => ?_
    simp [reaches, hown x hx]
  rw [hcount]
  split
  · next hmem => exact List.count_eq_one_of_mem hnodup hmem
  · next hmem => exact List.count_eq_zero.mpr hmem

/-- A message to each of some different users reaches each of these once, and nobody else. -/
theorem countP_reaches_map {u : NodeId} {users : List NodeId} (hnodup : users.Nodup)
    (hown : ∀ v ∈ users, v.isBroadcast = false) (msg : Message) :
    (users.map (·, msg)).countP (reaches u) = if u ∈ users then 1 else 0 := by
  have hfst : (users.map (·, msg)).map Prod.fst = users := by
    rw [List.map_map]
    exact List.map_id _
  rw [countP_reaches (hfst.symm ▸ hnodup) fun x hx => ?_, hfst]
  obtain ⟨v, hv, rfl⟩ := List.mem_map.mp hx
  exact hown v hv

namespace Booth

/-- Everyone who waits at or is inside a booth has an address of its own. -/
structure Addressed (b : Booth) : Prop where
  waiting : ∀ u ∈ b.waiting, u.isBroadcast = false
  active : ∀ u ∈ b.activeUsers, u.isBroadcast = false

variable {b : Booth} {u s : NodeId} (now : Instant)

/-- Nobody is at a booth that has just been opened. -/
theorem addressed_ofRules (id : NodeId) (r : Rules) : (ofRules id r).Addressed where
  waiting := fun _ h => absurd h List.not_mem_nil
  active := fun _ h => absurd h List.not_mem_nil

/-- Where nobody has come, everyone has an address still. -/
theorem Addressed.mono {b' : Booth} (h : b.Addressed) (hwaiting : b'.waiting ⊆ b.waiting)
    (hactive : b'.activeUsers ⊆ b.activeUsers) : b'.Addressed where
  waiting := fun v hv => h.waiting v (hwaiting hv)
  active := fun v hv => h.active v (hactive hv)

/-- Whoever comes by a request to register has an address if its sender has. -/
theorem Addressed.register (h : b.Addressed) (hs : s.isBroadcast = false) (now : Instant) :
    (b.register s now).2.Addressed := by
  have hjudged := register_judged b s now
  generalize b.register s now = outcome at hjudged
  have hlast {l : List NodeId} (hl : ∀ v ∈ l, v.isBroadcast = false) :
      ∀ v ∈ l ++ [s], v.isBroadcast = false := by
    intro v hv
    rcases List.mem_append.mp hv with hv | hv
    · exact hl v hv
    · exact List.mem_singleton.mp hv ▸ hs
  cases hjudged with
  | joins => exact ⟨hlast h.waiting, h.active⟩
  | enters =>
    refine ⟨fun v hv => h.waiting v (List.mem_of_mem_erase hv), ?_⟩
    rw [activeUsers, welcome, List.map_append]
    exact hlast h.active
  | _ => exact h

/-- Nobody comes when sessions end. -/
theorem Addressed.sweepSessions (h : b.Addressed) (now : Instant) (limit : Span) :
    (b.sweepSessions now limit).2.Addressed := by
  rw [sweepSessions_snd]
  exact h.mono (fun _ hv => hv) ((foldl_eraseP_sublist _ _).map _).subset

/-- The number of offers that can be sent to a user before it has to do something. -/
def unoffered (b : Booth) (u : NodeId) : Nat := if b.isOffered u then 0 else 1

/-- There is at most one such offer. -/
theorem unoffered_le_one (b : Booth) (u : NodeId) : b.unoffered u ≤ 1 := by
  unfold unoffered
  split <;> omega

/-- Whoever sees the offer go to another user can still be sent one. -/
theorem unoffered_of_offer {o : Offer} (ho : b.offer = some o) (hne : o.user ≠ u) : b.unoffered u = 1 := by
  rw [unoffered, if_neg]
  rw [isOffered_iff]
  rintro ⟨o', ho', huser⟩
  obtain rfl := Option.some.inj (ho.symm.trans ho')
  exact hne huser

/-- Withdrawing the offer of another user makes no difference. -/
theorem unoffered_of_release {b' : Booth} (hoffer : b'.offer = if b.isOffered s then none else b.offer)
    (hne : s ≠ u) : b'.unoffered u = b.unoffered u := by
  have hsame : b'.isOffered u = b.isOffered u := by
    rw [Bool.eq_iff_iff, isOffered_iff, isOffered_iff, hoffer]
    constructor
    · rintro ⟨o, ho, huser⟩
      exact ⟨o, (offer_of_releaseOffer ho).1, huser⟩
    · rintro ⟨o, ho, huser⟩
      refine ⟨o, ?_, huser⟩
      rw [if_neg fun hs => ?_]
      · exact ho
      · obtain ⟨o', ho', huser'⟩ := (isOffered_iff b s).mp hs
        obtain rfl := Option.some.inj (ho.symm.trans ho')
        exact hne (huser'.symm.trans huser)
  rw [unoffered, unoffered, hsame]

/-- The news of the queue goes to the waiters, each of them once. -/
theorem map_fst_queueUpdates (b : Booth) : b.queueUpdates.map Prod.fst = b.waiting := by
  apply List.ext_getElem
  · simp [queueUpdates]
  · intro i _ _
    simp [queueUpdates]

/-- The news of the queue reaches a user at most once, and only one who waits. -/
theorem countP_queueUpdates (hnodup : b.waiting.Nodup) (hown : ∀ v ∈ b.waiting, v.isBroadcast = false) :
    b.queueUpdates.countP (reaches u) = if u ∈ b.waiting then 1 else 0 := by
  have hfst := map_fst_queueUpdates b
  rw [countP_reaches (hfst.symm ▸ hnodup) fun x hx => ?_, hfst]
  exact hown x.1 (hfst ▸ List.mem_map_of_mem hx)

/-- An offer is paid for by the user's being without one. -/
theorem offerLetters_charge (hown : ∀ v ∈ b.waiting, v.isBroadcast = false) :
    (b.offerLetters now).countP (reaches u) + (b.offerNext now).2.unoffered u ≤ b.unoffered u := by
  rcases b.offerLetters_cases now with ⟨head, rest, hwait, hnone, hnext, hletters⟩ | ⟨hnext, hletters⟩ <;>
    rw [hnext, hletters]
  · have hhead : head.isBroadcast = false := hown head (hwait ▸ List.mem_cons_self)
    by_cases heq : head = u
    · simp [unoffered, isOffered, setOffer, hnone, reaches, heq]
    · simp [unoffered, isOffered, setOffer, hnone, reaches, heq, hhead]
  · simp

/-- An offer reaches nobody who does not wait. -/
theorem countP_offerLetters_of_not_mem (hown : ∀ v ∈ b.waiting, v.isBroadcast = false)
    (hout : u ∉ b.waiting) : (b.offerLetters now).countP (reaches u) = 0 := by
  rw [List.countP_eq_zero]
  rintro ⟨v, msg⟩ hx hreaches
  obtain ⟨hwait, -⟩ := mem_offerLetters hx
  rw [reaches_own (hown v hwait)] at hreaches
  exact hout (of_decide_eq_true hreaches ▸ hwait)

/-- The end of an offer and the next one tell a user of two things at most, and of one at most if it had
the offer itself. Those who do not wait are told nothing. -/
theorem withdrawal_charge (horderly : b.Orderly) (hown : ∀ v ∈ b.waiting, v.isBroadcast = false)
    (limit : Span) :
    (b.withdrawalLetters now limit).countP (reaches u) +
        ((b.sweepOffer now limit).2.offerLetters now).countP (reaches u) ≤
      if u ∈ b.waiting then b.unoffered u + 1 else 0 := by
  have hkept : (b.offerLetters now).countP (reaches u) ≤ if u ∈ b.waiting then b.unoffered u + 1 else 0 := by
    have hoffer := offerLetters_charge (u := u) now hown
    split
    · omega
    · next hout => exact Nat.le_of_eq (countP_offerLetters_of_not_mem now hown hout)
  have horderly' := horderly.sweepOffer now limit
  unfold withdrawalLetters
  rcases b.sweepOffer_cases now limit with ⟨o, ho, -, heq⟩ | heq
  · rw [heq] at horderly' ⊢
    have hholder := horderly.offer_mem ho
    have hown' : ∀ v ∈ b.waiting.erase o.user, v.isBroadcast = false :=
      fun v hv => hown v (List.mem_of_mem_erase hv)
    have hnews := countP_queueUpdates (u := u) horderly'.waiting_nodup hown'
    have hoffer := offerLetters_charge (u := u) now
      (b := { b with offer := none, waiting := b.waiting.erase o.user }) hown'
    have hnone := countP_offerLetters_of_not_mem (u := u) now
      (b := { b with offer := none, waiting := b.waiting.erase o.user }) hown'
    simp only [List.countP_cons, reaches_own (hown o.user hholder), decide_eq_true_eq]
    by_cases hself : o.user = u
    · have hout : u ∉ b.waiting.erase o.user := by
        rw [hself]
        exact fun hmem => (horderly.waiting_nodup.mem_erase_iff.mp hmem).1 rfl
      rw [hnews, hnone hout, if_neg hout, if_pos hself, if_pos (hself ▸ hholder)]
      omega
    · have hother := unoffered_of_offer ho hself
      have hone := unoffered_le_one { b with offer := none, waiting := b.waiting.erase o.user } u
      by_cases hwait : u ∈ b.waiting.erase o.user
      · rw [hnews, if_pos hwait, if_neg hself, if_pos (List.mem_of_mem_erase hwait)]
        omega
      · rw [hnews, hnone hwait, if_neg hwait, if_neg hself]
        exact Nat.zero_le _
  · rw [heq]
    simpa using hkept

/-- What a host says to a user in answer to a request to register is paid for: by two messages if the
user has asked itself, and by one if another user has. -/
theorem register_charge (horderly : b.Orderly) (haddressed : b.Addressed) (hs : s.isBroadcast = false) :
    (answerLetters s now (b.register s now)).countP (reaches u) +
        (if (b.register s now).1 = .admitted true then ((b.register s now).2.offerNext now).2
          else (b.register s now).2).unoffered u ≤
      b.unoffered u + if s = u then 2 else 1 := by
  have hjudged := register_judged b s now
  have horderly' := horderly.register s now
  generalize b.register s now = outcome at hjudged horderly'
  have hsource := reaches_own hs u
  cases hjudged with
  | confirmed | refused | stays | turnedAway | unlisted =>
    simp only [answerLetters, List.countP_cons, List.countP_nil, hsource, decide_eq_true_eq, reduceCtorEq,
      if_false]
    split <;> omega
  | joins =>
    have hsame : ({ b with waiting := b.waiting ++ [s] } : Booth).unoffered u = b.unoffered u := rfl
    simp only [answerLetters, List.countP_cons, List.countP_nil, hsource, decide_eq_true_eq, reduceCtorEq,
      if_false, hsame]
    split <;> omega
  | enters hout hnew hslot hline =>
    have hwaiting : ∀ v ∈ (b.welcome s now).waiting, v.isBroadcast = false :=
      fun v hv => haddressed.waiting v (List.mem_of_mem_erase hv)
    have hnews : (b.welcome s now).queueUpdates.countP (reaches u) =
        if u ∈ (b.welcome s now).waiting then 1 else 0 :=
      countP_queueUpdates horderly'.waiting_nodup hwaiting
    have hoffer := offerLetters_charge (u := u) now hwaiting
    have hone := (b.welcome s now).unoffered_le_one u
    have hother : s ≠ u → (b.welcome s now).unoffered u = b.unoffered u := unoffered_of_release rfl
    have hself : s = u → u ∉ (b.welcome s now).waiting := by
      rintro rfl hmem
      exact (horderly.waiting_nodup.mem_erase_iff.mp hmem).1 rfl
    cases b.isWaiting s with
    | false =>
      simp only [answerLetters, List.countP_cons, List.countP_nil, hsource, decide_eq_true_eq,
        Verdict.admitted.injEq, Bool.false_eq_true, if_false]
      by_cases hsu : s = u
      · rw [if_pos hsu, if_pos hsu]
        omega
      · rw [if_neg hsu, if_neg hsu, hother hsu]
        omega
    | true =>
      simp only [answerLetters, List.countP_cons, List.countP_append, hsource, decide_eq_true_eq, if_true]
      by_cases hsu : s = u
      · rw [if_neg (hself hsu)] at hnews
        rw [if_pos hsu, if_pos hsu]
        omega
      · have hnews : (b.welcome s now).queueUpdates.countP (reaches u) ≤ 1 := by
          rw [hnews]
          split <;> omega
        rw [hother hsu] at hoffer
        rw [if_neg hsu, if_neg hsu]
        omega

/-- An exit costs its own user one message. -/
theorem exit_charge (haddressed : b.Addressed) (hs : s.isBroadcast = false) :
    (if s ∈ b.activeUsers then (s, .exitResponse true) :: (b.removeActive s).2.offerLetters now
        else [(s, .exitResponse false)]).countP (reaches u) +
        (if (b.removeActive s).1.isSome then ((b.removeActive s).2.offerNext now).2 else b).unoffered u ≤
      b.unoffered u + if s = u then 1 else 0 := by
  have hsource := reaches_own hs u
  have hoffer : ((b.removeActive s).2.offerLetters now).countP (reaches u) +
      ((b.removeActive s).2.offerNext now).2.unoffered u ≤ b.unoffered u :=
    offerLetters_charge now haddressed.waiting
  simp only [isSome_removeActive]
  split
  · simp only [List.countP_cons, hsource, decide_eq_true_eq]
    omega
  · simp only [List.countP_cons, List.countP_nil, hsource, decide_eq_true_eq]
    omega

/-- Leaving the queue costs every user one message at most. -/
theorem leave_charge (horderly : b.Orderly) (haddressed : b.Addressed) :
    ((if s ∈ b.waiting then (b.leaveQueue s).2.queueUpdates else []) ++
        if b.isOffered s then (b.leaveQueue s).2.offerLetters now else []).countP (reaches u) +
        (if (b.leaveQueue s).1.offerReleased then ((b.leaveQueue s).2.offerNext now).2
          else (b.leaveQueue s).2).unoffered u ≤
      b.unoffered u + 1 := by
  have hleft : (b.leaveQueue s).2 =
      { b with waiting := b.waiting.erase s, offer := if b.isOffered s then none else b.offer } := by
    change (b.removeWaiting s).releaseOffer s = _
    rw [releaseOffer_eq]
    rfl
  have hwaiting : ∀ v ∈ (b.leaveQueue s).2.waiting, v.isBroadcast = false := by
    rw [hleft]
    exact fun v hv => haddressed.waiting v (List.mem_of_mem_erase hv)
  have hnews : (if s ∈ b.waiting then (b.leaveQueue s).2.queueUpdates else []).countP (reaches u) ≤
      if u ∈ (b.leaveQueue s).2.waiting then 1 else 0 := by
    split
    · exact Nat.le_of_eq (countP_queueUpdates (horderly.leaveQueue s).waiting_nodup hwaiting)
    · exact Nat.zero_le _
  have hoffer : (if b.isOffered s then (b.leaveQueue s).2.offerLetters now else []).countP (reaches u) +
      (if (b.leaveQueue s).1.offerReleased then ((b.leaveQueue s).2.offerNext now).2
        else (b.leaveQueue s).2).unoffered u ≤ (b.leaveQueue s).2.unoffered u := by
    change _ + (if b.isOffered s then _ else _ : Booth).unoffered u ≤ _
    split
    · exact offerLetters_charge now hwaiting
    · simp
  rw [List.countP_append]
  by_cases hsu : s = u
  · have hself : u ∉ (b.leaveQueue s).2.waiting := by
      rw [hleft, hsu]
      exact fun hmem => (horderly.waiting_nodup.mem_erase_iff.mp hmem).1 rfl
    have hone := (b.leaveQueue s).2.unoffered_le_one u
    rw [if_neg hself] at hnews
    omega
  · have hother : (b.leaveQueue s).2.unoffered u = b.unoffered u :=
      unoffered_of_release (by rw [hleft]) hsu
    have hone : (if u ∈ (b.leaveQueue s).2.waiting then 1 else 0) ≤ 1 := by split <;> omega
    omega

end Booth

namespace Host

/-- How many messages a request of `s` may cost the user `u`. -/
def toll (u s : NodeId) : Message → Nat
  | .boothScan | .connectRequest | .exitRequest => if s = u then 1 else 0
  | .registerRequest => if s = u then 2 else 1
  | .queueLeave | .chat .. => 1
  | _ => 0

variable {h : Host} (now : Instant) {u s : NodeId}

/-- What a host sends to a user on account of a message is paid for by the toll on it. -/
theorem onMessage_charge (horderly : h.booth.Orderly) (haddressed : h.booth.Addressed)
    (hs : s.isBroadcast = false) (msg : Message) :
    (Action.sent (h.onMessage now s msg).2).countP (reaches u) +
        (h.onMessage now s msg).1.booth.unoffered u ≤
      h.booth.unoffered u + if h.rules.isHost s then 0 else toll u s msg := by
  have hsource := reaches_own hs u
  rw [onMessage_sent, onMessage_fst]
  split
  · simp
  · cases msg with
    | boothScan | connectRequest =>
      simp only [List.countP_cons, List.countP_nil, hsource, decide_eq_true_eq, toll]
      omega
    | registerRequest =>
      simp only [onRegister_sent, onRegister_fst]
      exact Booth.register_charge now horderly haddressed hs
    | exitRequest =>
      simp only [onExit_sent, onExit_fst]
      exact Booth.exit_charge now haddressed hs
    | queueLeave =>
      simp only [onQueueLeave_sent, onQueueLeave_fst]
      exact Booth.leave_charge now horderly haddressed
    | chat sender text =>
      have hpassed : (Action.sent (h.onChat s text).2).countP (reaches u) ≤ 1 := by
        rw [onChat_sent]
        split
        · rw [countP_reaches_map (horderly.active_nodup.filter _) fun v hv => ?_]
          · split <;> omega
          · exact haddressed.active v (List.mem_filter.mp hv).1
        · exact Nat.zero_le _
      simp only [toll]
      omega
    | _ => simp

/-- How many messages an input before the tick may cost the user `u`. -/
def fee (r : Rules) (u : NodeId) : Input → Nat
  | .start => 1
  | .message s msg _ _ => if r.isHost s then 0 else toll u s msg
  | _ => 0

/-- Everyone at the booth has an address of its own, if every sender has. -/
theorem react_addressed {m : Moment} {i : Input} (haddressed : h.booth.Addressed)
    (hsource : ∀ s msg rssi snr, i = .message s msg rssi snr → s.isBroadcast = false) :
    (h.react m i).1.booth.Addressed := by
  apply h.react_keeps (P := Booth.Addressed) m i haddressed
  · exact fun b s rssi snr heq hb => hb.register (hsource s _ rssi snr heq) m.now
  · exact fun b s _ _ _ hb => hb.mono (fun _ hv => hv) (List.eraseP_sublist.map _).subset
  · intro b s _ _ _ hb
    change ((b.removeWaiting s).releaseOffer s).Addressed
    rw [Booth.releaseOffer_eq]
    exact hb.mono List.erase_subset fun _ hv => hv
  · exact fun b limit _ hb => hb.sweepSessions m.now limit
  · intro b limit _ hb
    rcases b.sweepOffer_cases m.now limit with ⟨o, -, -, heq⟩ | heq
    · rw [heq]
      exact hb.mono List.erase_subset fun _ hv => hv
    · rw [heq]
      exact hb
  · intro b hb
    rw [Booth.offerNext_snd]
    exact hb.mono (fun _ hv => hv) fun _ hv => hv

/-- A sweep tells a user of at most two things, of one of them only if it had no offer. -/
theorem sweep_charge (horderly : h.booth.Orderly) (haddressed : h.booth.Addressed) :
    (Action.sent (sweep now h).2).countP (reaches u) ≤ h.booth.unoffered u + 1 := by
  have hswept : (h.booth.sweepSessions now h.rules.sessionDuration).2.Orderly := horderly.sweepSessions now _
  have hwaiting := h.booth.sweepSessions_waiting now h.rules.sessionDuration
  have hunoffered : (h.booth.sweepSessions now h.rules.sessionDuration).2.unoffered u =
      h.booth.unoffered u := by
    rw [Booth.sweepSessions_snd]
    rfl
  have hwithdrawal := Booth.withdrawal_charge (u := u) now hswept
    (haddressed.sweepSessions now _).waiting h.rules.queueReadyTimeout
  rw [hwaiting, hunoffered] at hwithdrawal
  -- the sessions that are over are those of different users inside
  have hsub : (h.booth.expired now h.rules.sessionDuration).Sublist h.booth.activeUsers :=
    List.filter_sublist.map _
  have halerts : ((h.booth.expired now h.rules.sessionDuration).map (·, Message.timeoutAlert)).countP
      (reaches u) ≤ if u ∈ h.booth.waiting then 0 else 1 := by
    rw [countP_reaches_map (horderly.active_nodup.sublist hsub) fun v hv =>
      haddressed.active v (hsub.subset hv)]
    split
    · next hgone =>
      have hout : u ∉ h.booth.waiting :=
        fun hwait => horderly.not_active_of_waiting hwait (hsub.subset hgone)
      exact Nat.le_of_eq (if_neg hout).symm
    · exact Nat.zero_le _
  rw [sweep_sent, List.countP_append, List.countP_append]
  by_cases hwait : u ∈ h.booth.waiting
  · rw [if_pos hwait] at hwithdrawal halerts
    omega
  · rw [if_neg hwait] at hwithdrawal halerts
    omega

/-- A tick tells a user of at most three things, of one of them only if it had no offer. -/
theorem onTick_charge (horderly : h.booth.Orderly) (haddressed : h.booth.Addressed) (m : Moment) :
    (Action.sent (h.onTick m).2).countP (reaches u) ≤ h.booth.unoffered u + 2 := by
  have hsweep := sweep_charge (u := u) m.now horderly haddressed
  have hbroadcast : (Action.sent (broadcast m.tick (h.onTick m).1).2).countP (reaches u) ≤ 1 := by
    rw [broadcast_sent]
    split
    · exact List.countP_le_length
    · exact Nat.zero_le _
  rw [onTick_sent, List.countP_append]
  split
  · omega
  · rw [List.countP_nil]
    omega

/-- What a host sends to a user on account of an input before the tick is paid for by the fee for it. -/
theorem react_charge {m : Moment} {i : Input} (horderly : h.booth.Orderly) (haddressed : h.booth.Addressed)
    (hi : i = .start ∨ i.isExternal = true)
    (hsource : ∀ s msg rssi snr, i = .message s msg rssi snr → s.isBroadcast = false) :
    (Action.sent (h.react m i).2).countP (reaches u) + (h.react m i).1.booth.unoffered u ≤
      h.booth.unoffered u + fee h.rules u i := by
  cases i with
  | start =>
    have hone : (Action.sent (h.react m .start).2).countP (reaches u) ≤ 1 := List.countP_le_length
    change _ + h.booth.unoffered u ≤ h.booth.unoffered u + 1
    omega
  | timer => exact Nat.le_of_eq (Nat.zero_add _)
  | message s msg rssi snr =>
    exact onMessage_charge m.now horderly haddressed (hsource s msg rssi snr rfl) msg
  | intent | tick => rcases hi with hi | hi <;> cases hi

/-- A host under the rules whose booth is in order and lets nobody in without an address. -/
structure Serves (r : Rules) (h : Host) : Prop where
  rules : h.rules = r
  orderly : h.booth.Orderly
  addressed : h.booth.Addressed

variable {r : Rules} {m : Moment} {inputs : List Input}

/-- A host serves on, if every sender has an address of its own. -/
theorem Serves.react (hserves : h.Serves r) {i : Input}
    (hsource : ∀ s msg rssi snr, i = .message s msg rssi snr → s.isBroadcast = false) :
    (h.react m i).1.Serves r where
  rules := (h.react_rules m i).trans hserves.rules
  orderly := react_orderly hserves.orderly m i
  addressed := react_addressed hserves.addressed hsource

/-- What a host sends of a kind in a turn comes out of what its booth holds before the turn, the costs of the
inputs and what the tick adds, if each reaction keeps to such an account. -/
theorem turn_counts (hserves : h.Serves r)
    (hsource : ∀ s msg rssi snr, .message s msg rssi snr ∈ inputs → s.isBroadcast = false)
    (counts : NodeId × Message → Bool) (held : Booth → Nat) (cost : Input → Nat) (extra : Nat)
    (hreact : ∀ later : Host, later.Serves r → ∀ i ∈ inputs,
      (Action.sent (later.react m i).2).countP counts + held (later.react m i).1.booth ≤
        held later.booth + cost i)
    (htick : ∀ later : Host, later.Serves r →
      (Action.sent (later.onTick m).2).countP counts ≤ held later.booth + extra) :
    (Action.sent (h.run ((inputs ++ [Input.tick]).map (m, ·))).2).countP counts ≤
      held h.booth + (inputs.map cost).sum + extra := by
  have hinput : ∀ e ∈ inputs.map (m, ·), e.1 = m ∧ e.2 ∈ inputs := by
    intro e he
    obtain ⟨i, hi, rfl⟩ := List.mem_map.mp he
    exact ⟨rfl, hi⟩
  have hstep : ∀ (later : Host) (m' : Moment) (i : Input), (m', i) ∈ inputs.map (m, ·) → later.Serves r →
      (later.react m' i).1.Serves r := by
    intro later m' i hmem hlater
    refine hlater.react ?_
    rintro s msg rssi snr rfl
    exact hsource s msg rssi snr (hinput _ hmem).2
  have hbefore := runWith_charges Host.react (P := Serves r) counts (fun later => held later.booth) cost
    (inputs.map (m, ·)) hserves hstep fun later m' i hmem hlater => by
      obtain ⟨rfl, hi⟩ := hinput _ hmem
      exact hreact later hlater i hi
  have hcosts : ((inputs.map (m, ·)).map fun e => cost e.2) = inputs.map cost := List.map_map
  rw [hcosts] at hbefore
  change (Action.sent (h.run (inputs.map (m, ·))).2).countP counts +
    held (h.run (inputs.map (m, ·))).1.booth ≤ _ at hbefore
  have htick := htick (h.run (inputs.map (m, ·))).1 (runWith_keeps (P := Serves r) hserves hstep)
  rw [Host.run, runWith_concat, andThen, Action.sent_append, List.countP_append]
  change (Action.sent (h.run (inputs.map (m, ·))).2).countP counts +
    (Action.sent ((h.run (inputs.map (m, ·))).1.onTick m).2).countP counts ≤ _
  omega

/-- In a turn without intents a host sends a user at most three messages besides those that are paid for
by the fees for the inputs. -/
theorem turn_charge (hserves : h.Serves r) (hinputs : ∀ i ∈ inputs, i = .start ∨ i.isExternal = true)
    (hsource : ∀ s msg rssi snr, .message s msg rssi snr ∈ inputs → s.isBroadcast = false) :
    (Action.sent (h.run ((inputs ++ [Input.tick]).map (m, ·))).2).countP (reaches u) ≤
      (inputs.map (fee r u)).sum + 3 := by
  have hturn := turn_counts hserves hsource (reaches u) (·.unoffered u) (fee r u) 2
    (fun later hlater i hi => by
      have hcharge := react_charge (u := u) (m := m) hlater.orderly hlater.addressed (hinputs i hi)
        fun s msg rssi snr heq => hsource s msg rssi snr (heq ▸ hi)
      rw [hlater.rules] at hcharge
      exact hcharge)
    (fun later hlater => onTick_charge hlater.orderly hlater.addressed m)
  have hone := h.booth.unoffered_le_one u
  omega

end Host

end BoothFloor
