import BoothFloor.Proofs.Host.Admissions
import BoothFloor.Proofs.Host.Queue
import BoothFloor.Proofs.Host.Traffic

/-!
# Whom a host speaks to

A host answers the sender of a message and speaks to those who wait or are inside; to everyone it speaks at
its start and at a tick only. As only visitors ever come to a booth, another host hears nothing of a turn
but what is for everyone.
-/

namespace BoothFloor

/-- Whether a message tells everyone who hears it the same, as announcements do; all others are meant for one. -/
def Message.isPublic : Message → Bool
  | boothAnnounce _ | adminMessage _ => true
  | _ => false

namespace Booth

variable {b : Booth} {u v : NodeId} {P : NodeId → Prop} (now : Instant)

/-- Whoever waits once a request to register has been judged did so before or has made the request. -/
theorem mem_waiting_register {now : Instant} (hmem : v ∈ (b.register u now).2.waiting) : v ∈ b.waiting ∨ v = u := by
  have hjudged := b.register_judged u now
  generalize b.register u now = outcome at hjudged hmem
  cases hjudged with
  | joins => simpa using hmem
  | enters => exact .inl (List.mem_of_mem_erase hmem)
  | _ => exact .inl hmem

/-- A request to register is answered to the user who has made it, and reported to those who wait. -/
theorem answerLetters_addressees (hu : P u) (hwaiting : ∀ v ∈ b.waiting, P v) :
    ∀ x ∈ answerLetters u now (b.register u now), P x.1 := by
  have hwaiting' : ∀ v ∈ (b.register u now).2.waiting, P v :=
    fun v hv => (mem_waiting_register hv).elim (hwaiting v) fun heq => heq ▸ hu
  generalize b.register u now = outcome at hwaiting'
  obtain ⟨verdict, after⟩ := outcome
  rintro ⟨dest, msg⟩ hx
  rcases verdict with (_ | _) | _ | _ | _ | _
  case admitted.true =>
    rcases List.mem_cons.mp hx with heq | hx
    · obtain ⟨rfl, -⟩ := Prod.mk.inj heq
      exact hu
    · rcases List.mem_append.mp hx with hnews | hoffer
      · exact hwaiting' dest (mem_queueUpdates hnews).1
      · exact hwaiting' dest (mem_offerLetters hoffer).1
  all_goals
    simp only [answerLetters, List.mem_cons, List.not_mem_nil, Prod.mk.injEq, or_false] at hx
  case queued =>
    obtain ⟨rfl, -⟩ | ⟨rfl, -⟩ := hx <;> exact hu
  all_goals
    obtain ⟨rfl, -⟩ := hx
    exact hu

/-- The end of an offer and the next one are told to those who wait. -/
theorem withdrawal_addressees (hwaiting : ∀ v ∈ b.waiting, P v) (hholder : ∀ o, b.offer = some o → P o.user)
    (limit : Span) : ∀ x ∈ b.withdrawalLetters now limit ++ (b.sweepOffer now limit).2.offerLetters now, P x.1 := by
  rintro ⟨dest, msg⟩ hx
  unfold withdrawalLetters at hx
  rcases b.sweepOffer_cases now limit with ⟨o, ho, -, heq⟩ | heq
  · rw [heq] at hx
    have hkept : ∀ v ∈ b.waiting.erase o.user, P v := fun v hv => hwaiting v (List.mem_of_mem_erase hv)
    rcases List.mem_append.mp hx with hnews | hoffer
    · rcases List.mem_cons.mp hnews with heq | hnews
      · obtain ⟨rfl, -⟩ := Prod.mk.inj heq
        exact hholder o ho
      · exact hkept dest (mem_queueUpdates hnews).1
    · exact hkept dest (mem_offerLetters hoffer).1
  · rw [heq] at hx
    exact hwaiting dest (mem_offerLetters hx).1

end Booth

namespace Host

variable {h : Host} {m : Moment} {i : Input} {P : NodeId → Prop}

/-- On account of a message a host speaks to its sender, to those who wait and to those inside. -/
theorem onMessage_addressees {source : NodeId} (hsource : P source) (hwaiting : ∀ u ∈ h.booth.waiting, P u)
    (hactive : ∀ u ∈ h.booth.activeUsers, P u) (now : Instant) (msg : Message) :
    ∀ x ∈ Action.sent (h.onMessage now source msg).2, P x.1 := by
  rw [onMessage_sent]
  split
  · exact fun x hx => absurd hx List.not_mem_nil
  · cases msg with
    | boothScan | connectRequest => exact fun x hx => List.mem_singleton.mp hx ▸ hsource
    | registerRequest =>
      simp only [onRegister_sent]
      exact Booth.answerLetters_addressees now hsource hwaiting
    | exitRequest =>
      simp only [onExit_sent]
      split
      · rintro ⟨dest, msg⟩ hx
        rcases List.mem_cons.mp hx with heq | hoffer
        · obtain ⟨rfl, -⟩ := Prod.mk.inj heq
          exact hsource
        · exact hwaiting dest (Booth.mem_offerLetters hoffer).1
      · exact fun x hx => List.mem_singleton.mp hx ▸ hsource
    | queueLeave =>
      have hleft : ∀ u ∈ (h.booth.leaveQueue source).2.waiting, P u := by
        rw [Booth.leaveQueue_waiting]
        exact fun u hu => hwaiting u (List.mem_of_mem_erase hu)
      simp only [onQueueLeave_sent]
      rintro ⟨dest, msg⟩ hx
      rcases List.mem_append.mp hx with hnews | hoffer
      · split at hnews
        · exact hleft dest (Booth.mem_queueUpdates hnews).1
        · cases hnews
      · split at hoffer
        · exact hleft dest (Booth.mem_offerLetters hoffer).1
        · cases hoffer
    | chat sender text =>
      simp only [onChat_sent]
      split
      · intro x hx
        obtain ⟨u, hu, rfl⟩ := List.mem_map.mp hx
        exact hactive u (List.mem_filter.mp hu).1
      · exact fun x hx => absurd hx List.not_mem_nil
    | _ => exact fun x hx => absurd hx List.not_mem_nil

/-- A sweep speaks to those inside and to those who wait. -/
theorem sweep_addressees (horderly : h.booth.Orderly) (hwaiting : ∀ u ∈ h.booth.waiting, P u)
    (hactive : ∀ u ∈ h.booth.activeUsers, P u) (now : Instant) : ∀ x ∈ Action.sent (sweep now h).2, P x.1 := by
  have hswept := horderly.sweepSessions now h.rules.sessionDuration
  rw [← h.booth.sweepSessions_waiting now h.rules.sessionDuration] at hwaiting
  have hqueue := Booth.withdrawal_addressees now hwaiting
    (fun o ho => hwaiting o.user (hswept.offer_mem ho)) h.rules.queueReadyTimeout
  rw [sweep_sent, List.append_assoc]
  intro x hx
  rcases List.mem_append.mp hx with halert | hx
  · obtain ⟨u, hu, rfl⟩ := List.mem_map.mp halert
    exact hactive u ((h.booth.expired_sublist now h.rules.sessionDuration).subset hu)
  · exact hqueue x hx

/-- Whoever waits or has been admitted after a reaction had done so before, or is a visitor that has just asked to
register. -/
theorem react_listed (hwaiting : ∀ u ∈ h.booth.waiting, P u) (hregistered : ∀ u ∈ h.booth.registered, P u)
    (hasks : ∀ u rssi snr, i = .message u .registerRequest rssi snr → h.rules.isHost u = false → P u) (m : Moment) :
    (∀ u ∈ (h.react m i).1.booth.waiting, P u) ∧ ∀ u ∈ (h.react m i).1.booth.registered, P u := by
  by_cases hhost : ∃ s msg rssi snr, i = .message s msg rssi snr ∧ h.rules.isHost s = true
  · obtain ⟨s, msg, rssi, snr, rfl, hs⟩ := hhost
    rw [show h.react m (.message s msg rssi snr) = (h, []) from if_pos hs]
    exact ⟨hwaiting, hregistered⟩
  have hlast {l : List NodeId} {s : NodeId} (hl : ∀ u ∈ l, P u) (hs : P s) : ∀ u ∈ l ++ [s], P u := by
    intro u hu
    rcases List.mem_append.mp hu with hu | hu
    · exact hl u hu
    · exact List.mem_singleton.mp hu ▸ hs
  apply h.react_keeps (P := fun b => (∀ u ∈ b.waiting, P u) ∧ ∀ u ∈ b.registered, P u) m i ⟨hwaiting, hregistered⟩
  · intro b s rssi snr heq hb
    have hs : P s := hasks s rssi snr heq (Bool.eq_false_iff.mpr fun hs => hhost ⟨s, _, rssi, snr, heq, hs⟩)
    have hjudged := b.register_judged s m.now
    generalize b.register s m.now = outcome at hjudged
    cases hjudged with
    | joins => exact ⟨hlast hb.1 hs, hb.2⟩
    | enters => exact ⟨fun v hv => hb.1 v (List.mem_of_mem_erase hv), hlast hb.2 hs⟩
    | _ => exact hb
  · exact fun _ _ _ _ _ hb => hb
  · intro b s _ _ _ hb
    rw [Booth.leaveQueue_waiting, Booth.leaveQueue_registered]
    exact ⟨fun v hv => hb.1 v (List.mem_of_mem_erase hv), hb.2⟩
  · intro b limit _ hb
    rw [Booth.sweepSessions_waiting, Booth.sweepSessions_registered]
    exact hb
  · intro b limit _ hb
    rw [Booth.sweepOffer_registered]
    rcases b.sweepOffer_cases m.now limit with ⟨o, -, -, heq⟩ | heq
    · rw [heq]
      exact ⟨fun v hv => hb.1 v (List.mem_of_mem_erase hv), hb.2⟩
    · rw [heq]
      exact hb
  · intro b hb
    rw [Booth.offerNext_waiting, Booth.offerNext_registered]
    exact hb

/-- What a host says to single visitors it says to the sender of a message, to those who wait and to those inside. -/
theorem react_addressees (horderly : h.booth.Orderly) (hwaiting : ∀ u ∈ h.booth.waiting, P u)
    (hactive : ∀ u ∈ h.booth.activeUsers, P u)
    (hsource : ∀ s msg rssi snr, i = .message s msg rssi snr → h.rules.isHost s = false → P s) (m : Moment) :
    ∀ x ∈ Action.sent (h.react m i).2, x.2.isPublic = false → P x.1 := by
  intro x hx hprivate
  have hcall : x.2.isPublic = true → P x.1 := fun hpublic => by
    rw [hpublic] at hprivate
    cases hprivate
  cases i with
  | start => exact hcall (List.mem_singleton.mp hx ▸ rfl)
  | timer => cases hx
  | intent intent =>
    cases intent with
    | announce => exact hcall (List.mem_singleton.mp hx ▸ rfl)
    | chat text =>
      change x ∈ Action.sent (h.booth.activeUsers.map fun u => .send u (.adminMessage text)) at hx
      rw [Action.sent_map_send] at hx
      obtain ⟨u, -, rfl⟩ := List.mem_map.mp hx
      exact hcall rfl
    | _ => cases hx
  | tick =>
    change x ∈ Action.sent (h.onTick m).2 at hx
    rw [onTick_sent, broadcast_sent, List.mem_append] at hx
    rcases hx with hswept | hcalled
    · split at hswept
      · exact sweep_addressees horderly hwaiting hactive m.now x hswept
      · cases hswept
    · split at hcalled
      · exact hcall (List.mem_singleton.mp hcalled ▸ rfl)
      · cases hcalled
  | message source msg rssi snr =>
    change x ∈ Action.sent (h.onMessage m.now source msg).2 at hx
    cases hsender : h.rules.isHost source with
    | true =>
      rw [onMessage_sent, if_pos hsender] at hx
      cases hx
    | false => exact onMessage_addressees (hsource source msg rssi snr rfl hsender) hwaiting hactive m.now msg x hx

/-- How many messages for everyone an input calls for at most. -/
def callout : Input → Nat
  | .start | .tick | .intent (.announce _) => 1
  | _ => 0

/-- Only visitors are at the booth of a host, and only visitors ever were. -/
structure ForVisitors (h : Host) : Prop where
  waiting : ∀ u ∈ h.booth.waiting, h.rules.isHost u = false
  registered : ∀ u ∈ h.booth.registered, h.rules.isHost u = false

/-- A booth that has just been opened is for visitors. -/
theorem forVisitors_ofRules (id : NodeId) (r : Rules) : (ofRules id r).ForVisitors where
  waiting := fun _ h => absurd h List.not_mem_nil
  registered := fun _ h => absurd h List.not_mem_nil

/-- A booth for visitors stays one, whatever the host reacts to. -/
theorem ForVisitors.react (hvisitors : h.ForVisitors) (m : Moment) (i : Input) : (h.react m i).1.ForVisitors := by
  have hlisted := react_listed hvisitors.waiting hvisitors.registered (fun _ _ _ _ hguest => hguest) (i := i) m
  rw [← h.react_rules m i] at hlisted
  exact ⟨hlisted.1, hlisted.2⟩

/-- A booth for visitors stays one for a whole run. -/
theorem ForVisitors.run (hvisitors : h.ForVisitors) (events : List (Moment × Input)) : (h.run events).1.ForVisitors :=
  runWith_keeps (P := ForVisitors) hvisitors fun _ m i _ hlater => hlater.react m i

/-- Another host hears of a reaction only what is for everyone. -/
theorem react_callout {r : Rules} {b : NodeId} (hserves : h.Serves r) (hvisitors : h.ForVisitors)
    (hhost : r.isHost b = true)
    (hsource : ∀ s msg rssi snr, i = .message s msg rssi snr → s.isBroadcast = false) :
    (Action.sent (h.react m i).2).countP (reaches b) ≤ callout i := by
  have hhost : h.rules.isHost b = true := hserves.rules ▸ hhost
  -- whoever has an address of its own and is no host is not reached for `b`
  have hmissed {letters : List (NodeId × Message)}
      (hletters : ∀ x ∈ letters, x.1.isBroadcast = false ∧ h.rules.isHost x.1 = false) :
      letters.countP (reaches b) = 0 := by
    refine List.countP_eq_zero.mpr fun x hx hreaches => ?_
    obtain ⟨hown, hguest⟩ := hletters x hx
    rw [reaches_own hown] at hreaches
    rw [of_decide_eq_true hreaches, hhost] at hguest
    cases hguest
  have hwaiting : ∀ u ∈ h.booth.waiting, u.isBroadcast = false ∧ h.rules.isHost u = false :=
    fun u hu => ⟨hserves.addressed.waiting u hu, hvisitors.waiting u hu⟩
  have hactive : ∀ u ∈ h.booth.activeUsers, u.isBroadcast = false ∧ h.rules.isHost u = false :=
    fun u hu => ⟨hserves.addressed.active u hu,
      hvisitors.registered u (hserves.orderly.active_registered u hu)⟩
  cases i with
  | start => exact List.countP_le_length
  | timer => exact Nat.le_refl 0
  | intent intent =>
    cases intent with
    | announce => exact List.countP_le_length
    | chat text =>
      change (Action.sent (h.booth.activeUsers.map fun u => .send u (.adminMessage text))).countP _ ≤ 0
      rw [Action.sent_map_send, hmissed]
      intro x hx
      obtain ⟨u, hu, rfl⟩ := List.mem_map.mp hx
      exact hactive u hu
    | _ => exact Nat.le_refl 0
  | tick =>
    have hswept : ∀ x ∈ Action.sent (sweep m.now h).2, x.1.isBroadcast = false ∧ h.rules.isHost x.1 = false :=
      sweep_addressees hserves.orderly hwaiting hactive m.now
    have hbroadcast : (Action.sent (broadcast m.tick (h.onTick m).1).2).countP (reaches b) ≤ 1 := by
      rw [broadcast_sent]
      split
      · exact List.countP_le_length
      · exact Nat.zero_le _
    change (Action.sent (h.onTick m).2).countP (reaches b) ≤ 1
    rw [onTick_sent, List.countP_append]
    split
    · rw [hmissed hswept, Nat.zero_add]
      exact hbroadcast
    · rw [List.countP_nil, Nat.zero_add]
      exact hbroadcast
  | message source msg rssi snr =>
    change (Action.sent (h.onMessage m.now source msg).2).countP (reaches b) ≤ 0
    cases hsender : h.rules.isHost source with
    | true =>
      rw [onMessage_sent, if_pos hsender]
      exact Nat.le_refl 0
    | false =>
      rw [hmissed (onMessage_addressees (P := fun u => u.isBroadcast = false ∧ h.rules.isHost u = false)
        ⟨hsource source msg rssi snr rfl, hsender⟩ hwaiting hactive m.now msg)]

/-- Another host hears of a run only what is for everyone. -/
theorem run_callout {r : Rules} {b : NodeId} (hserves : h.Serves r) (hvisitors : h.ForVisitors)
    (hhost : r.isHost b = true) {events : List (Moment × Input)}
    (hsource : ∀ m s msg rssi snr, (m, .message s msg rssi snr) ∈ events → s.isBroadcast = false) :
    (Action.sent (h.run events).2).countP (reaches b) ≤ (events.map fun e => callout e.2).sum := by
  have hcharges := runWith_charges Host.react (P := fun later => later.Serves r ∧ later.ForVisitors) (reaches b)
    (fun _ => 0) callout events ⟨hserves, hvisitors⟩
    (fun later m i hmem hlater =>
      ⟨hlater.1.react fun s msg rssi snr heq => hsource m s msg rssi snr (heq ▸ hmem), hlater.2.react m i⟩)
    (fun later m i hmem hlater =>
      Nat.le_trans (react_callout hlater.1 hlater.2 hhost fun s msg rssi snr heq =>
        hsource m s msg rssi snr (heq ▸ hmem)) (Nat.le_add_left _ _))
  change (Action.sent (h.run events).2).countP (reaches b) + 0 ≤ 0 + _ at hcharges
  rwa [Nat.add_zero, Nat.zero_add] at hcharges

end Host

end BoothFloor
