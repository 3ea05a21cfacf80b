import BoothFloor.Proofs.Host.Confirmation
import BoothFloor.Proofs.Host.Traffic

/-!
# How often a host offers a slot to one user

In one turn a host offers a slot to a user once at most, unless the user takes leave of the queue in
between: an offer stands until it is taken, given back or withdrawn, and whoever loses one by a sweep
has lost its place as well. `Booth.allowance` keeps the account.
-/

namespace BoothFloor

/-- Whether a message that reaches a user is an offer of a slot. -/
def isOffer (u : NodeId) (x : NodeId × Message) : Bool := reaches u x && decide (x.2 = .queueReady)

/-- Messages of other kinds offer nothing. -/
theorem countP_isOffer_of_ne {u : NodeId} {letters : List (NodeId × Message)}
    (hother : ∀ x ∈ letters, x.2 ≠ .queueReady) : letters.countP (isOffer u) = 0 := by
  rw [List.countP_eq_zero]
  intro x hx hoffer
  exact hother x hx (of_decide_eq_true (Bool.and_eq_true_iff.mp hoffer).2)

namespace Booth

variable {b : Booth} {u s : NodeId} (now : Instant)

/-- How many offers a user can get before it takes leave of the queue. -/
def allowance (b : Booth) (u : NodeId) : Nat := if u ∈ b.registered then 0 else b.unoffered u

/-- There is at most one such offer. -/
theorem allowance_le_one (b : Booth) (u : NodeId) : b.allowance u ≤ 1 := by
  unfold allowance
  split
  · exact Nat.zero_le 1
  · exact b.unoffered_le_one u

/-- The allowance depends on the list of those admitted and on the offer. -/
theorem allowance_congr {b' : Booth} (hlisted : u ∈ b'.registered ↔ u ∈ b.registered)
    (hoffer : b'.unoffered u = b.unoffered u) : b'.allowance u = b.allowance u := by
  simp only [allowance, hlisted, hoffer]

/-- News of the queue is no offer. -/
theorem countP_isOffer_queueUpdates : b.queueUpdates.countP (isOffer u) = 0 := by
  refine countP_isOffer_of_ne fun x hx => ?_
  obtain ⟨-, position, total, heq⟩ := mem_queueUpdates hx
  rw [heq]
  nofun

/-- An offer is paid for by the allowance. -/
theorem offerLetters_allowance (horderly : b.Orderly) (hown : ∀ v ∈ b.waiting, v.isBroadcast = false) :
    (b.offerLetters now).countP (isOffer u) + (b.offerNext now).2.allowance u ≤ b.allowance u := by
  rcases b.offerLetters_cases now with ⟨head, rest, hwait, hnone, hnext, hletters⟩ | ⟨hnext, hletters⟩ <;>
    rw [hnext, hletters]
  · have hnew := horderly.waiting_new head (hwait ▸ List.mem_cons_self)
    have hhead := hown head (hwait ▸ List.mem_cons_self)
    by_cases heq : head = u
    · subst heq
      simp [allowance, unoffered, isOffered, setOffer, hnone, isOffer, reaches, hnew]
    · simp [allowance, unoffered, isOffered, setOffer, hnone, isOffer, reaches, hhead, heq]
  · simp

/-- The answer to a request to register offers a slot only within the allowance. -/
theorem register_allowance (horderly : b.Orderly) (haddressed : b.Addressed) :
    (answerLetters s now (b.register s now)).countP (isOffer u) +
        (if (b.register s now).1 = .admitted true then ((b.register s now).2.offerNext now).2
          else (b.register s now).2).allowance u ≤
      b.allowance u := by
  have hjudged := register_judged b s now
  have horderly' := horderly.register s now
  generalize b.register s now = outcome at hjudged horderly'
  cases hjudged with
  | confirmed | refused | stays | turnedAway | unlisted =>
    simp [answerLetters, isOffer]
  | joins =>
    have hsame : ({ b with waiting := b.waiting ++ [s] } : Booth).allowance u = b.allowance u := rfl
    simp [answerLetters, isOffer, hsame]
  | enters =>
    have hwelcomed : (b.welcome s now).allowance u ≤ b.allowance u := by
      by_cases hsu : s = u
      · have hlisted : u ∈ (b.welcome s now).registered :=
          hsu ▸ List.mem_append_right _ (List.mem_singleton_self s)
        rw [allowance, if_pos hlisted]
        exact Nat.zero_le _
      · have hlisted : u ∈ (b.welcome s now).registered ↔ u ∈ b.registered := by
          simp [welcome, Ne.symm hsu]
        exact Nat.le_of_eq (allowance_congr hlisted (unoffered_of_release rfl hsu))
    cases b.isWaiting s with
    | false => simpa [answerLetters, isOffer] using hwelcomed
    | true =>
      have hoffer : ((b.welcome s now).offerLetters now).countP (isOffer u) +
          ((b.welcome s now).offerNext now).2.allowance u ≤ (b.welcome s now).allowance u :=
        offerLetters_allowance now horderly' fun v hv => haddressed.waiting v (List.mem_of_mem_erase hv)
      have hself : isOffer u (s, .registerResponse true .success) = false := by simp [isOffer]
      simp only [answerLetters, List.countP_cons, List.countP_append, countP_isOffer_queueUpdates, hself,
        Bool.false_eq_true, if_false, if_true]
      omega

/-- So does an exit. -/
theorem exit_allowance (horderly : b.Orderly) (haddressed : b.Addressed) :
    (if s ∈ b.activeUsers then (s, .exitResponse true) :: (b.removeActive s).2.offerLetters now
        else [(s, .exitResponse false)]).countP (isOffer u) +
        (if (b.removeActive s).1.isSome then ((b.removeActive s).2.offerNext now).2 else b).allowance u ≤
      b.allowance u := by
  have hoffer : ((b.removeActive s).2.offerLetters now).countP (isOffer u) +
      ((b.removeActive s).2.offerNext now).2.allowance u ≤ b.allowance u :=
    offerLetters_allowance now (horderly.removeActive s) haddressed.waiting
  have hself (success : Bool) : isOffer u (s, .exitResponse success) = false := by simp [isOffer]
  simp only [isSome_removeActive]
  split
  · simpa [hself] using hoffer
  · simp [hself]

/-- A leave offers a slot only within the allowance, and gives its user a new one. -/
theorem leave_allowance (horderly : b.Orderly) (haddressed : b.Addressed) :
    ((if s ∈ b.waiting then (b.leaveQueue s).2.queueUpdates else []) ++
        if b.isOffered s then (b.leaveQueue s).2.offerLetters now else []).countP (isOffer u) +
        (if (b.leaveQueue s).1.offerReleased then ((b.leaveQueue s).2.offerNext now).2
          else (b.leaveQueue s).2).allowance u ≤
      b.allowance u + if s = u then 1 else 0 := by
  have hleft : (b.leaveQueue s).2.allowance u ≤ b.allowance u + if s = u then 1 else 0 := by
    by_cases hsu : s = u
    · have hone := (b.leaveQueue s).2.allowance_le_one u
      rw [if_pos hsu]
      omega
    · have hsame : (b.leaveQueue s).2.allowance u = b.allowance u := by
        change ((b.removeWaiting s).releaseOffer s).allowance u = _
        rw [releaseOffer_eq]
        exact allowance_congr Iff.rfl (unoffered_of_release rfl hsu)
      omega
  have hnews : (if s ∈ b.waiting then (b.leaveQueue s).2.queueUpdates else []).countP (isOffer u) = 0 := by
    split
    · exact countP_isOffer_queueUpdates
    · rfl
  have hoffer : (if b.isOffered s then (b.leaveQueue s).2.offerLetters now else []).countP (isOffer u) +
      (if (b.leaveQueue s).1.offerReleased then ((b.leaveQueue s).2.offerNext now).2
        else (b.leaveQueue s).2).allowance u ≤ (b.leaveQueue s).2.allowance u := by
    change _ + (if b.isOffered s then _ else _ : Booth).allowance u ≤ _
    split
    · refine offerLetters_allowance now (horderly.leaveQueue s) fun v hv => haddressed.waiting v ?_
      change v ∈ ((b.removeWaiting s).releaseOffer s).waiting at hv
      rw [releaseOffer_eq] at hv
      exact List.mem_of_mem_erase hv
    · simp
  rw [List.countP_append]
  omega

/-- The offer after the end of another one is made within the allowance before that. -/
theorem withdrawal_allowance (horderly : b.Orderly) (hown : ∀ v ∈ b.waiting, v.isBroadcast = false)
    (limit : Span) :
    ((b.sweepOffer now limit).2.offerLetters now).countP (isOffer u) ≤ b.allowance u := by
  rcases b.sweepOffer_cases now limit with ⟨o, ho, -, heq⟩ | heq
  · have hown' : ∀ v ∈ b.waiting.erase o.user, v.isBroadcast = false :=
      fun v hv => hown v (List.mem_of_mem_erase hv)
    have horderly' := horderly.sweepOffer now limit
    rw [heq] at horderly' ⊢
    by_cases hself : o.user = u
    · -- the user has lost its place with the offer
      have hnone : (({ b with offer := none, waiting := b.waiting.erase o.user } : Booth).offerLetters
          now).countP (isOffer u) = 0 := by
        rw [List.countP_eq_zero]
        rintro ⟨v, msg⟩ hx hisOffer
        obtain ⟨hwait, -⟩ := mem_offerLetters hx
        have hreaches := (Bool.and_eq_true_iff.mp hisOffer).1
        rw [reaches_own (hown' v hwait)] at hreaches
        have hv : v = u := of_decide_eq_true hreaches
        exact (horderly.waiting_nodup.mem_erase_iff.mp hwait).1 (hv.trans hself.symm)
      rw [hnone]
      exact Nat.zero_le _
    · have hsame : ({ b with offer := none, waiting := b.waiting.erase o.user } : Booth).allowance u =
          b.allowance u := allowance_congr Iff.rfl (unoffered_of_offer ho hself).symm
      exact hsame ▸ Nat.le_of_add_right_le (offerLetters_allowance now horderly' hown')
  · rw [heq]
    exact Nat.le_of_add_right_le (offerLetters_allowance now horderly hown)

end Booth

namespace Host

variable {h : Host} {u : NodeId} {m : Moment} {i : Input}

/-- Before the tick a host offers a slot to a user only within the allowance, which only a leave of that
user renews. -/
theorem react_allowance (horderly : h.booth.Orderly) (haddressed : h.booth.Addressed)
    (hi : i = .start ∨ i.isExternal = true)
    (hstays : ∀ rssi snr, i ≠ .message u .queueLeave rssi snr) :
    (Action.sent (h.react m i).2).countP (isOffer u) + (h.react m i).1.booth.allowance u ≤
      h.booth.allowance u := by
  cases i with
  | start =>
    have hnone : isOffer u (.broadcast, .boothAnnounce h.booth.status) = false := by simp [isOffer]
    change [(NodeId.broadcast, Message.boothAnnounce h.booth.status)].countP (isOffer u) +
      h.booth.allowance u ≤ _
    simp [hnone]
  | timer => exact Nat.le_of_eq (Nat.zero_add _)
  | message s msg rssi snr =>
    change (Action.sent (h.onMessage m.now s msg).2).countP (isOffer u) +
      (h.onMessage m.now s msg).1.booth.allowance u ≤ _
    rw [onMessage_sent, onMessage_fst]
    split
    · simp
    · cases msg with
      | registerRequest =>
        simp only [onRegister_sent, onRegister_fst]
        exact Booth.register_allowance m.now horderly haddressed
      | exitRequest =>
        simp only [onExit_sent, onExit_fst]
        exact Booth.exit_allowance m.now horderly haddressed
      | queueLeave =>
        have hleave := Booth.leave_allowance (s := s) (u := u) m.now horderly haddressed
        rw [if_neg fun hsu : s = u => hstays rssi snr (hsu ▸ rfl)] at hleave
        simp only [onQueueLeave_sent, onQueueLeave_fst]
        exact hleave
      | chat sender text =>
        have hpassed : (Action.sent (h.onChat s text).2).countP (isOffer u) = 0 := by
          refine countP_isOffer_of_ne fun x hx => ?_
          rw [onChat_sent] at hx
          split at hx
          · obtain ⟨v, -, rfl⟩ := List.mem_map.mp hx
            nofun
          · cases hx
        simp [hpassed]
      | _ => simp [isOffer]
  | intent | tick => rcases hi with hi | hi <;> cases hi

/-- A tick offers a slot only within the allowance. -/
theorem onTick_allowance (horderly : h.booth.Orderly) (haddressed : h.booth.Addressed) (m : Moment) :
    (Action.sent (h.onTick m).2).countP (isOffer u) ≤ h.booth.allowance u := by
  have hbroadcast : (Action.sent (broadcast m.tick (h.onTick m).1).2).countP (isOffer u) = 0 := by
    rw [broadcast_sent]
    split
    · simp [isOffer]
    · rfl
  have hswept : (h.booth.sweepSessions m.now h.rules.sessionDuration).2.Orderly :=
    horderly.sweepSessions m.now _
  have hsame : (h.booth.sweepSessions m.now h.rules.sessionDuration).2.allowance u = h.booth.allowance u := by
    rw [Booth.sweepSessions_snd]
    rfl
  have halerts : ((h.booth.expired m.now h.rules.sessionDuration).map (·, Message.timeoutAlert)).countP
      (isOffer u) = 0 := by
    refine countP_isOffer_of_ne fun x hx => ?_
    obtain ⟨v, -, rfl⟩ := List.mem_map.mp hx
    nofun
  have hnews : ((h.booth.sweepSessions m.now h.rules.sessionDuration).2.withdrawalLetters m.now
      h.rules.queueReadyTimeout).countP (isOffer u) = 0 := by
    refine countP_isOffer_of_ne fun x hx => ?_
    obtain ⟨position, total, heq⟩ := Booth.mem_withdrawalLetters hx
    rw [heq]
    nofun
  rw [onTick_sent, List.countP_append, hbroadcast]
  split
  · rw [sweep_sent, List.countP_append, List.countP_append, halerts, hnews, ← hsame]
    have hoffer := Booth.withdrawal_allowance (u := u) m.now hswept
      (haddressed.sweepSessions m.now _).waiting h.rules.queueReadyTimeout
    omega
  · exact Nat.zero_le _

/-- In a turn without intents a host offers a slot to a user once at most, unless the user has taken
leave of the queue. -/
theorem turn_allowance {r : Rules} (hserves : h.Serves r) {inputs : List Input}
    (hinputs : ∀ i ∈ inputs, i = .start ∨ i.isExternal = true)
    (hsource : ∀ s msg rssi snr, .message s msg rssi snr ∈ inputs → s.isBroadcast = false)
    (hstays : ∀ rssi snr, .message u .queueLeave rssi snr ∉ inputs) :
    (Action.sent (h.run ((inputs ++ [Input.tick]).map (m, ·))).2).countP (isOffer u) ≤ 1 := by
  have hturn := turn_counts hserves hsource (isOffer u) (·.allowance u) (fun _ => 0) 0
    (fun later hlater i hi =>
      react_allowance hlater.orderly hlater.addressed (hinputs i hi) fun rssi snr hleave =>
        hstays rssi snr (hleave ▸ hi))
    (fun later hlater => onTick_allowance hlater.orderly hlater.addressed m)
  have hone := h.booth.allowance_le_one u
  have hfree : (inputs.map fun _ => 0).sum = 0 := by simp
  omega

end Host

end BoothFloor
