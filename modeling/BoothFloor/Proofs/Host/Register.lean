import BoothFloor.Proofs.Booth.Orderly
import BoothFloor.Proofs.Rules
import BoothFloor.Proofs.Run

/-!
# The register of a running host

A host changes its booth by six operations of the register and by nothing else. Hence the register
of every run is in order, and the counts that the booth announces are the true ones: the rules keep
them within one byte.
-/

namespace BoothFloor

namespace Host

/-- Handing a free slot on changes the booth by an offer at most. -/
theorem offerSlot_fst (now : Instant) (h : Host) :
    (offerSlot now h).1 = { h with booth := (h.booth.offerNext now).2 } := by
  unfold offerSlot
  split <;> next heq => rw [heq]

/-- Answering a request to register changes the booth by the judgement, and by an offer to the next
waiter if the user came from the queue. -/
theorem onRegister_fst (h : Host) (now : Instant) (u : NodeId) :
    (h.onRegister now u).1 = { h with booth :=
      if (h.booth.register u now).1 = .admitted true then ((h.booth.register u now).2.offerNext now).2
      else (h.booth.register u now).2 } := by
  unfold onRegister
  generalize h.booth.register u now = outcome
  obtain ⟨verdict, b⟩ := outcome
  cases verdict with
  | admitted leftQueue => cases leftQueue <;> simp [andThen, offerSlot_fst]
  | _ => simp

/-- An exit ends the user's session and hands the slot on, if there is such a session. -/
theorem onExit_fst (h : Host) (now : Instant) (u : NodeId) :
    (h.onExit now u).1 = { h with booth :=
      if (h.booth.removeActive u).1.isSome then ((h.booth.removeActive u).2.offerNext now).2
      else h.booth } := by
  unfold onExit
  split <;> next heq => simp [heq, andThen, offerSlot_fst]

/-- Leaving the queue hands the offer on, if the user held it. -/
theorem onQueueLeave_fst (h : Host) (now : Instant) (u : NodeId) :
    (h.onQueueLeave now u).1 = { h with booth :=
      if (h.booth.leaveQueue u).1.offerReleased then ((h.booth.leaveQueue u).2.offerNext now).2
      else (h.booth.leaveQueue u).2 } := by
  unfold onQueueLeave
  generalize h.booth.leaveQueue u = outcome
  obtain ⟨departure, b⟩ := outcome
  cases hreleased : departure.offerReleased <;> simp [hreleased, andThen, offerSlot_fst]

/-- Withdrawing an overdue offer changes the booth only. -/
theorem sweepOffer_fst (now : Instant) (h : Host) :
    (sweepOffer now h).1 = { h with booth := (h.booth.sweepOffer now h.rules.queueReadyTimeout).2 } := by
  unfold sweepOffer
  split <;> next heq => rw [heq]

/-- A sweep ends overdue sessions, then an overdue offer, then hands a free slot on. -/
theorem sweep_fst (now : Instant) (h : Host) :
    (sweep now h).1 = { h with booth :=
      ((((h.booth.sweepSessions now h.rules.sessionDuration).2).sweepOffer now
        h.rules.queueReadyTimeout).2.offerNext now).2 } := by
  change (offerSlot now (sweepOffer now (sweepSessions now h).1).1).1 = _
  rw [offerSlot_fst, sweepOffer_fst]
  rfl

/-- Announcing the booth changes nothing. -/
theorem broadcast_fst (tick : Nat) (h : Host) : (broadcast tick h).1 = h := by
  unfold broadcast
  split <;> rfl

/-- A tick changes the host by a sweep, when one is due. -/
theorem onTick_fst (h : Host) (m : Moment) :
    (h.onTick m).1 = if m.tick % h.rules.sweepInterval.toNat = 0 then (sweep m.now h).1 else h := by
  unfold onTick
  rw [andThen, broadcast_fst]
  split <;> rfl

/-- A message changes the booth by the three requests that a user can make, and by no others. -/
theorem onMessage_fst (h : Host) (now : Instant) (source : NodeId) (message : Message) :
    (h.onMessage now source message).1 =
      if h.rules.isHost source then h
      else match message with
        | .registerRequest => (h.onRegister now source).1
        | .exitRequest => (h.onExit now source).1
        | .queueLeave => (h.onQueueLeave now source).1
        | _ => h := by
  unfold onMessage
  split
  · rfl
  · cases message with
    | chat =>
      simp only [onChat]
      split <;> rfl
    | _ => rfl

/-- A visitor's request to register is handled as such. -/
theorem react_register_guest {h : Host} {u : NodeId} (hguest : h.rules.isHost u = false) (m : Moment)
    (rssi : Int16) (snr : Int8) :
    h.react m (.message u .registerRequest rssi snr) = h.onRegister m.now u := by
  simp [react, onMessage, hguest]

/-- What is true of the booth and kept by the six operations of its register outlasts a reaction. A
request to the register comes with a message of its user, a sweep with a tick. -/
theorem react_keeps {P : Booth → Prop} (h : Host) (m : Moment) (i : Input) (hbooth : P h.booth)
    (hregister : ∀ b u rssi snr, i = .message u .registerRequest rssi snr → P b → P (b.register u m.now).2)
    (hexit : ∀ b u rssi snr, i = .message u .exitRequest rssi snr → P b → P (b.removeActive u).2)
    (hleave : ∀ b u rssi snr, i = .message u .queueLeave rssi snr → P b → P (b.leaveQueue u).2)
    (hsessions : ∀ b limit, i = .tick → P b → P (b.sweepSessions m.now limit).2)
    (hoffer : ∀ b limit, i = .tick → P b → P (b.sweepOffer m.now limit).2)
    (hnext : ∀ b, P b → P (b.offerNext m.now).2) : P (h.react m i).1.booth := by
  cases i with
  | start => exact hbooth
  | timer => exact hbooth
  | intent i => cases i <;> exact hbooth
  | tick =>
    change P (h.onTick m).1.booth
    rw [onTick_fst]
    split
    · rw [sweep_fst]
      exact hnext _ (hoffer _ _ rfl (hsessions _ _ rfl hbooth))
    · exact hbooth
  | message source message rssi snr =>
    change P (h.onMessage m.now source message).1.booth
    rw [onMessage_fst]
    split
    · exact hbooth
    cases message with
    | registerRequest =>
      rw [onRegister_fst]
      dsimp only
      split
      · exact hnext _ (hregister _ _ rssi snr rfl hbooth)
      · exact hregister _ _ rssi snr rfl hbooth
    | exitRequest =>
      rw [onExit_fst]
      dsimp only
      split
      · exact hnext _ (hexit _ _ rssi snr rfl hbooth)
      · exact hbooth
    | queueLeave =>
      rw [onQueueLeave_fst]
      dsimp only
      split
      · exact hnext _ (hleave _ _ rssi snr rfl hbooth)
      · exact hleave _ _ rssi snr rfl hbooth
    | _ => exact hbooth

/-- A host plays by the same rules all along. -/
theorem react_rules (h : Host) (m : Moment) (i : Input) : (h.react m i).1.rules = h.rules := by
  cases i with
  | start => rfl
  | timer => rfl
  | intent i => cases i <;> rfl
  | tick =>
    change (h.onTick m).1.rules = h.rules
    rw [onTick_fst, sweep_fst]
    split <;> rfl
  | message source message =>
    change (h.onMessage m.now source message).1.rules = h.rules
    rw [onMessage_fst, onRegister_fst, onExit_fst, onQueueLeave_fst]
    split
    · rfl
    · cases message <;> rfl

/-- Every reaction leaves the register in order. -/
theorem react_orderly {h : Host} (horderly : h.booth.Orderly) (m : Moment) (i : Input) :
    (h.react m i).1.booth.Orderly :=
  h.react_keeps m i horderly (fun _ u _ _ _ hb => hb.register u m.now)
    (fun _ u _ _ _ hb => hb.removeActive u) (fun _ u _ _ _ hb => hb.leaveQueue u)
    (fun _ limit _ hb => hb.sweepSessions m.now limit) (fun _ limit _ hb => hb.sweepOffer m.now limit)
    (fun _ hb => hb.offerNext m.now)

/-- The register of every run is in order. -/
theorem run_orderly {h : Host} (horderly : h.booth.Orderly) (events : List (Moment × Input)) :
    (h.run events).1.booth.Orderly :=
  runWith_keeps (P := fun h : Host => h.booth.Orderly) horderly fun _ m i _ hbooth =>
    react_orderly hbooth m i

/-- The booth of every run has the id and the limits with which it was opened. -/
theorem run_sameFixtures (h : Host) (events : List (Moment × Input)) :
    h.booth.SameFixtures (h.run events).1.booth := by
  apply runWith_keeps (P := fun later : Host => h.booth.SameFixtures later.booth) (.refl _)
  intro later m i _ hbooth
  exact later.react_keeps m i hbooth (fun b u _ _ _ hb => hb.trans (b.register_sameFixtures u m.now))
    (fun _ _ _ _ _ hb => hb.trans ⟨rfl, rfl, rfl, rfl⟩)
    (fun b u _ _ _ hb => hb.trans (b.leaveQueue_sameFixtures u))
    (fun b limit _ hb => hb.trans (b.sweepSessions_sameFixtures m.now limit))
    (fun b limit _ hb => hb.trans (b.sweepOffer_sameFixtures m.now limit))
    (fun b hb => hb.trans (b.offerNext_sameFixtures m.now))

/-- A run leaves the rules as they are. -/
theorem run_rules (h : Host) (events : List (Moment × Input)) : (h.run events).1.rules = h.rules := by
  apply runWith_keeps (P := fun later : Host => later.rules = h.rules) rfl
  intro later m i _ hrules
  rw [later.react_rules m i, hrules]

/-- A count that fits one byte is announced as it is. -/
theorem clampByte_toNat {n : Nat} (h : n ≤ 255) : (clampByte n).toNat = n := by
  rw [clampByte, Nat.min_eq_left h]
  exact UInt8.toNat_ofNat_of_lt' (Nat.lt_succ_of_le h)

/-- Whatever inputs a host is given, in whatever order and at whatever moments, its register is in
order within the limits of the rules, the set of those ever admitted holds the users on the list of them
and no others, and its announced counts are exact. -/
theorem run_register_exact (id : NodeId) (r : Rules) (valid : r.Valid)
    (events : List (Moment × Input)) :
    let b := ((ofRules id r).run events).1.booth
    b.Orderly ∧ b.capacity = r.boothCapacity.toNat ∧ b.maxUsers = r.maxUsers.toNat ∧
      (∀ u, b.isRegistered u = true ↔ u ∈ b.registered) ∧
      (∀ u ∈ b.waiting, u ∉ b.activeUsers) ∧
      b.status.booth = id ∧ b.status.current.toNat = b.active.length ∧
      b.status.capacity.toNat = b.capacity ∧ b.status.waiting.toNat = b.waiting.length := by
  intro b
  have hbounds := valid.bounds
  have horderly : b.Orderly := run_orderly (Booth.orderly_ofRules id r) events
  have hfixtures := run_sameFixtures (ofRules id r) events
  have hcapacity : b.capacity = r.boothCapacity.toNat := hfixtures.capacity
  have hmax : b.maxUsers = r.maxUsers.toNat := hfixtures.maxUsers
  have hactive := horderly.active_le
  have hwaiting := horderly.waiting_le
  have hle := hbounds.capacity_le
  have hbyte := hbounds.maxUsers_le
  exact ⟨horderly, hcapacity, hmax, horderly.agrees, fun _ => horderly.not_active_of_waiting,
    hfixtures.id, clampByte_toNat (by omega), clampByte_toNat (by omega), clampByte_toNat (by omega)⟩

/-- Three visitors come to a booth for two, and one of them leaves. -/
def threeVisitors : List (Moment × Input) :=
  let request (t : UInt64) (u : UInt8) : Moment × Input :=
    (⟨⟨t⟩, 1⟩, .message ⟨u⟩ .registerRequest 0 0)
  [(⟨⟨0⟩, 1⟩, .start), request 10 4, request 10 5, request 20 6,
    (⟨⟨30⟩, 2⟩, .message ⟨5⟩ .exitRequest 0 0), (⟨⟨30⟩, 2⟩, .tick)]

/-- After the first three visitors one is inside and one has been offered the other slot. -/
theorem run_register_exact_threeVisitors :
    let b := ((ofRules ⟨1⟩ .brisk).run threeVisitors).1.booth
    Rules.brisk.Valid ∧ (b.activeUsers = [⟨4⟩] ∧ b.waiting = [⟨6⟩] ∧ b.offer = some ⟨⟨6⟩, ⟨30⟩⟩) ∧
      b.Orderly ∧ b.capacity = 2 ∧ b.status.current.toNat = 1 ∧ b.status.waiting.toNat = 1 := by
  have hvalid : Rules.brisk.Valid := by decide
  obtain ⟨horderly, hcapacity, _, _, _, _, hcurrent, _, hwaiting⟩ :=
    run_register_exact ⟨1⟩ .brisk hvalid threeVisitors
  exact ⟨hvalid, by decide, horderly, hcapacity, hcurrent, hwaiting⟩

end Host

end BoothFloor
