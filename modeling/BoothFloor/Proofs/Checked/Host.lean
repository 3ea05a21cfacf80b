import BoothFloor.Proofs.Checked.Arithmetic
import BoothFloor.Proofs.Host.Register

/-!
# The arithmetic of a booth host

A host counts places in its queue, adds those ahead of a visitor to those inside, takes sessions off by their place
in the list and takes the tick modulo its intervals. Under rules that can be played by the lists are short and the
intervals are not zero, so all of this goes through, whatever the host is given.
-/

namespace BoothFloor

namespace Booth

/-- A waiter's place in the queue, counted from one. -/
def positionChecked? (b : Booth) (u : NodeId) : Except Fault (Option Nat) :=
  match b.waiting.idxOf? u with
  | none => .ok none
  | some i => do return some (← Checked.add 64 i 1)

/-- How many waiters come before a user. -/
def aheadChecked (b : Booth) (u : NodeId) : Except Fault Nat := do
  match ← b.positionChecked? u with
  | some p => Checked.sub p 1
  | none => return b.waiting.length

/-- Put a user at the end of the queue, if it does not wait already. -/
def enqueueChecked (b : Booth) (u : NodeId) : Except Fault (Except RegistryError (Nat × Booth)) := do
  match ← b.positionChecked? u with
  | some p => return .ok (p, b)
  | none =>
    if b.maxUsers ≤ b.waiting.length then return .error (.waitingQueueFull b.maxUsers)
    else
      let queue := b.waiting ++ [u]
      return .ok (queue.length, { b with waiting := queue })

/-- Judge a request to register. -/
def registerChecked (b : Booth) (u : NodeId) (now : Instant) : Except Fault (Verdict × Booth) :=
  if b.isActive u then .ok (.alreadyActive, b)
  else if b.isRegistered u then .ok (.alreadyUsed, b)
  else do
    let taken ← Checked.add 64 b.active.length (← b.aheadChecked u)
    if b.capacity ≤ taken then
      match ← b.enqueueChecked u with
      | .ok (position, b') => return (.queued position b'.waiting.length, b')
      | .error e => return (.rejected e, b)
    else if b.maxUsers ≤ b.registered.length then return (.rejected (.registeredListFull b.maxUsers), b)
    else
      match b.letIn u now with
      | (.ok (), b') => return (.admitted (b.isWaiting u), b')
      | (.error e, b') => return (.rejected e, b')

/-- Take a user's session off the list by its place there. -/
def removeActiveChecked (b : Booth) (u : NodeId) : Except Fault (Option Session × Booth) :=
  match b.active.findIdx? (·.user == u) with
  | none => .ok (none, b)
  | some i => do return (some (← Checked.nth b.active i), { b with active := b.active.eraseIdx i })

/-- What every waiter is told of its place. -/
def queueUpdatesChecked (b : Booth) : Except Fault (List (NodeId × Message)) :=
  b.waiting.zipIdx.mapM fun (u, i) => do
    return (u, .queueUpdate (clampByte (← Checked.add 64 i 1)) (clampByte b.waiting.length))

/-- Take out every user whose session has lasted for `limit`. -/
def sweepSessionsChecked (b : Booth) (now : Instant) (limit : Span) : Except Fault (List NodeId × Booth) := do
  let gone := b.expired now limit
  return (gone, ← gone.foldlM (fun b u => do return (← b.removeActiveChecked u).2) b)

/-- A register in order, with limits that fit one byte. -/
structure Compact (b : Booth) : Prop where
  orderly : b.Orderly
  capacity_le : b.capacity ≤ 255
  maxUsers_le : b.maxUsers ≤ 255

variable {b : Booth}

/-- A later state of a compact register is compact if it is in order. -/
theorem Compact.later (h : b.Compact) {b' : Booth} (horderly : b'.Orderly) (hfixtures : b.SameFixtures b') :
    b'.Compact where
  orderly := horderly
  capacity_le := hfixtures.capacity ▸ h.capacity_le
  maxUsers_le := hfixtures.maxUsers ▸ h.maxUsers_le

/-- Places in a queue that is not too long are counted without a fault. -/
theorem Compact.positionChecked?_eq (h : b.Compact) (u : NodeId) :
    b.positionChecked? u = .ok (b.position? u) := by
  unfold positionChecked? position?
  cases hplace : b.waiting.idxOf? u with
  | none => rfl
  | some i =>
    have hwaiting := h.orderly.waiting_le
    have hmax := h.maxUsers_le
    have hi : i < b.waiting.length := (List.findIdx?_eq_some_iff_findIdx_eq.mp hplace).1
    dsimp only
    rw [Checked.add_of_lt (by omega)]
    rfl

/-- Those ahead of a user are counted without a fault. -/
theorem Compact.aheadChecked_eq (h : b.Compact) (u : NodeId) : b.aheadChecked u = .ok (b.ahead u) := by
  unfold aheadChecked ahead
  rw [h.positionChecked?_eq, Checked.ok_bind]
  cases hplace : b.position? u with
  | none => rfl
  | some p =>
    obtain ⟨i, -, rfl⟩ := Option.map_eq_some_iff.mp hplace
    have hpos : 1 ≤ i + 1 := Nat.le_add_left 1 i
    exact Checked.sub_of_le hpos

/-- A user is put in the queue without a fault. -/
theorem Compact.enqueueChecked_eq (h : b.Compact) (u : NodeId) : b.enqueueChecked u = .ok (b.enqueue u) := by
  unfold enqueueChecked enqueue
  rw [h.positionChecked?_eq, Checked.ok_bind]
  cases b.position? u with
  | some p => rfl
  | none =>
    dsimp only
    split
    · rfl
    · rw [List.length_append]
      rfl

/-- A request is judged without a fault. -/
theorem Compact.registerChecked_eq (h : b.Compact) (u : NodeId) (now : Instant) :
    b.registerChecked u now = .ok (b.register u now) := by
  have hactive := h.orderly.active_le
  have hcapacity := h.capacity_le
  have hwaiting := h.orderly.waiting_le
  have hmax := h.maxUsers_le
  have hahead : b.ahead u ≤ b.waiting.length := by
    rw [ahead_eq]
    exact List.idxOf_le_length
  unfold registerChecked register
  rw [h.aheadChecked_eq, Checked.ok_bind, Checked.add_of_lt (by omega), Checked.ok_bind, h.enqueueChecked_eq,
    Checked.ok_bind]
  split
  · rfl
  split
  · rfl
  split
  · cases b.enqueue u <;> rfl
  split
  · rfl
  · rcases b.letIn u now with ⟨_ | _, _⟩ <;> rfl

/-- A session is taken off by its place without a fault. -/
theorem removeActiveChecked_eq (b : Booth) (u : NodeId) : b.removeActiveChecked u = .ok (b.removeActive u) := by
  unfold removeActiveChecked removeActive
  rw [List.find?_eq_bind_findIdx?_getElem?, List.eraseP_eq_eraseIdx]
  cases hplace : b.active.findIdx? (·.user == u) with
  | none => rfl
  | some i =>
    have hi : i < b.active.length := (List.findIdx?_eq_some_iff_findIdx_eq.mp hplace).1
    dsimp only
    rw [Checked.nth_of_lt hi, Option.bind_some, List.getElem?_eq_getElem hi]
    rfl

/-- Everyone in a queue that is not too long is told its place without a fault. -/
theorem Compact.queueUpdatesChecked_eq (h : b.Compact) : b.queueUpdatesChecked = .ok b.queueUpdates := by
  have hwaiting := h.orderly.waiting_le
  have hmax := h.maxUsers_le
  unfold queueUpdatesChecked queueUpdates
  rw [List.mapIdx_eq_zipIdx_map]
  refine Checked.mapM_eq_ok fun (u, i) hmem => ?_
  have hi : i < b.waiting.length := List.snd_lt_of_mem_zipIdx hmem
  dsimp only
  rw [Checked.add_of_lt (by omega)]
  rfl

/-- Sessions that are over their time are taken off without a fault. -/
theorem sweepSessionsChecked_eq (b : Booth) (now : Instant) (limit : Span) :
    b.sweepSessionsChecked now limit = .ok (b.sweepSessions now limit) := by
  have hloop := @Checked.foldlM_eq_ok NodeId Booth (fun b u => do return (← b.removeActiveChecked u).2)
    (fun b u => (b.removeActive u).2) (fun _ _ => True) (b.expired now limit) b trivial fun u _ b _ => by
      rw [removeActiveChecked_eq]
      exact ⟨rfl, trivial⟩
  unfold sweepSessionsChecked
  dsimp only
  rw [hloop]
  rfl

end Booth

/-- Carry on with the state that a first part leaves behind, which may fault. -/
def andThenChecked {σ : Type} (first : σ × List Action) (next : σ → Except Fault (σ × List Action)) :
    Except Fault (σ × List Action) := do
  let second ← next first.1
  return (second.1, first.2 ++ second.2)

/-- Two parts follow one another without a fault if the second one goes through. -/
theorem andThenChecked_eq {σ : Type} {first : σ × List Action} {next : σ → Except Fault (σ × List Action)}
    {plain : σ → σ × List Action} (hnext : next first.1 = .ok (plain first.1)) :
    andThenChecked first next = .ok (andThen first plain) := by
  rw [andThenChecked, hnext]
  rfl

namespace Host

/-- Tell every waiter its place. -/
def tellQueueChecked (b : Booth) : Except Fault (List Action) := do
  return (← b.queueUpdatesChecked).map fun (u, m) => .send u m

/-- The answer to a request to register. -/
def onRegisterChecked (h : Host) (now : Instant) (u : NodeId) : Except Fault (Host × List Action) := do
  let (verdict, b) ← h.booth.registerChecked u now
  let h := { h with booth := b }
  match verdict with
  | .admitted leftQueue =>
    let welcome : List Action :=
      [.send u (.registerResponse true .success), .emit (.userAdmitted u)]
    if leftQueue then return andThen (h, welcome ++ (← tellQueueChecked b)) (offerSlot now)
    else return (h, welcome)
  | .alreadyActive => return (h, [.send u (.registerResponse true .success)])
  | .alreadyUsed => return (h, [.send u (.registerResponse false .alreadyUsed), .emit (.userRefused u)])
  | .queued position total =>
    return (h, [.send u (.registerResponse false .fullWaiting),
      .send u (.queueInfo (clampByte position) (clampByte total)),
      .emit (.userQueued u (clampByte position) (clampByte total))])
  | .rejected _ => return (h, [])

/-- The answer to an exit. -/
def onExitChecked (h : Host) (now : Instant) (u : NodeId) : Except Fault (Host × List Action) := do
  match ← h.booth.removeActiveChecked u with
  | (none, _) => return (h, [.send u (.exitResponse false)])
  | (some _, b) =>
    return andThen ({ h with booth := b }, [.send u (.exitResponse true), .emit (.userExited u)])
      (offerSlot now)

/-- What follows when a user leaves the queue. -/
def onQueueLeaveChecked (h : Host) (now : Instant) (u : NodeId) : Except Fault (Host × List Action) := do
  let (departure, b) := h.booth.leaveQueue u
  let news ← if departure.removed then tellQueueChecked b else pure []
  let told : Host × List Action := ({ h with booth := b }, news)
  if departure.offerReleased then return andThen told (offerSlot now) else return told

/-- A message from another node. -/
def onMessageChecked (h : Host) (now : Instant) (source : NodeId) (m : Message) :
    Except Fault (Host × List Action) :=
  if h.rules.isHost source then .ok (h, [])
  else
    match m with
    | .registerRequest => h.onRegisterChecked now source
    | .exitRequest => h.onExitChecked now source
    | .queueLeave => h.onQueueLeaveChecked now source
    | .boothScan => .ok (h, h.announceTo source)
    | .connectRequest =>
      let s := h.booth.status
      .ok (h, [.send source (.boothInfo s.current s.capacity s.waiting h.booth.description)])
    | .chat _ text => .ok (h.onChat source text)
    | _ => .ok (h, [])

/-- End the sessions that have lasted too long. -/
def endSessionsChecked (now : Instant) (h : Host) : Except Fault (Host × List Action) := do
  let (gone, b) ← h.booth.sweepSessionsChecked now h.rules.sessionDuration
  return ({ h with booth := b }, gone.flatMap fun u => [.send u .timeoutAlert, .emit (.sessionExpired u)])

/-- Withdraw an offer that nobody took in time. -/
def sweepOfferChecked (now : Instant) (h : Host) : Except Fault (Host × List Action) :=
  match h.booth.sweepOffer now h.rules.queueReadyTimeout with
  | (some u, b) => do
    return ({ h with booth := b }, [.send u (.queueUpdate 0 0), .emit (.offerExpired u)] ++ (← tellQueueChecked b))
  | (none, b) => .ok ({ h with booth := b }, [])

/-- End what has lasted too long, then offer a slot that has become free. -/
def sweepChecked (now : Instant) (h : Host) : Except Fault (Host × List Action) := do
  return andThen (← andThenChecked (← h.endSessionsChecked now) (sweepOfferChecked now)) (offerSlot now)

/-- Periodic announcement. -/
def broadcastChecked (tick : Nat) (h : Host) : Except Fault (Host × List Action) :=
  if h.broadcasting then do
    return if (← Checked.rem tick h.rules.broadcastInterval.toNat) = 0 then (h, h.announceTo .broadcast) else (h, [])
  else .ok (h, [])

/-- The periodic work. -/
def onTickChecked (h : Host) (m : Moment) : Except Fault (Host × List Action) := do
  let swept ← if (← Checked.rem m.tick h.rules.sweepInterval.toNat) = 0 then h.sweepChecked m.now else pure (h, [])
  andThenChecked swept (broadcastChecked m.tick)

/-- The host's reaction to an input. -/
def reactChecked (h : Host) (m : Moment) : Input → Except Fault (Host × List Action)
  | .message source message _ _ => h.onMessageChecked m.now source message
  | .tick => h.onTickChecked m
  | i => .ok (h.react m i)

variable {h : Host}

/-- Everyone in the queue of a compact register is told its place without a fault. -/
theorem tellQueueChecked_eq {b : Booth} (hb : b.Compact) : tellQueueChecked b = .ok (tellQueue b) := by
  rw [tellQueueChecked, hb.queueUpdatesChecked_eq]
  rfl

/-- A request to register is answered without a fault. -/
theorem onRegisterChecked_eq (hbooth : h.booth.Compact) (now : Instant) (u : NodeId) :
    h.onRegisterChecked now u = .ok (h.onRegister now u) := by
  have hlater : (h.booth.register u now).2.Compact :=
    hbooth.later (hbooth.orderly.register u now) (h.booth.register_sameFixtures u now)
  unfold onRegisterChecked onRegister
  rw [hbooth.registerChecked_eq, Checked.ok_bind]
  generalize h.booth.register u now = judged at hlater ⊢
  obtain ⟨verdict, b⟩ := judged
  cases verdict with
  | admitted leftQueue =>
    dsimp only
    split
    · rw [tellQueueChecked_eq hlater]
      rfl
    · rfl
  | _ => rfl

/-- An exit is answered without a fault. -/
theorem onExitChecked_eq (h : Host) (now : Instant) (u : NodeId) :
    h.onExitChecked now u = .ok (h.onExit now u) := by
  unfold onExitChecked onExit
  rw [Booth.removeActiveChecked_eq, Checked.ok_bind]
  rcases h.booth.removeActive u with ⟨_ | _, _⟩ <;> rfl

/-- A user leaves the queue without a fault. -/
theorem onQueueLeaveChecked_eq (hbooth : h.booth.Compact) (now : Instant) (u : NodeId) :
    h.onQueueLeaveChecked now u = .ok (h.onQueueLeave now u) := by
  have hlater : (h.booth.leaveQueue u).2.Compact :=
    hbooth.later (hbooth.orderly.leaveQueue u) (h.booth.leaveQueue_sameFixtures u)
  unfold onQueueLeaveChecked onQueueLeave
  generalize h.booth.leaveQueue u = left at hlater ⊢
  obtain ⟨departure, b⟩ := left
  dsimp only
  rw [tellQueueChecked_eq hlater]
  cases departure.removed <;> cases departure.offerReleased <;> rfl

/-- A message is handled without a fault. -/
theorem onMessageChecked_eq (hbooth : h.booth.Compact) (now : Instant) (source : NodeId) (m : Message) :
    h.onMessageChecked now source m = .ok (h.onMessage now source m) := by
  unfold onMessageChecked onMessage
  split
  · rfl
  · cases m with
    | registerRequest => exact onRegisterChecked_eq hbooth now source
    | exitRequest => exact h.onExitChecked_eq now source
    | queueLeave => exact onQueueLeaveChecked_eq hbooth now source
    | _ => rfl

/-- Sessions are ended without a fault. -/
theorem endSessionsChecked_eq (h : Host) (now : Instant) :
    h.endSessionsChecked now = .ok (sweepSessions now h) := by
  rw [endSessionsChecked, Booth.sweepSessionsChecked_eq]
  rfl

/-- An offer is withdrawn without a fault. -/
theorem sweepOfferChecked_eq (hbooth : h.booth.Compact) (now : Instant) :
    sweepOfferChecked now h = .ok (sweepOffer now h) := by
  have hlater : (h.booth.sweepOffer now h.rules.queueReadyTimeout).2.Compact :=
    hbooth.later (hbooth.orderly.sweepOffer _ _) (h.booth.sweepOffer_sameFixtures _ _)
  unfold sweepOfferChecked sweepOffer
  generalize h.booth.sweepOffer now h.rules.queueReadyTimeout = swept at hlater ⊢
  obtain ⟨_ | u, b⟩ := swept
  · rfl
  · dsimp only
    rw [tellQueueChecked_eq hlater]
    rfl

/-- A sweep goes through without a fault. -/
theorem sweepChecked_eq (hbooth : h.booth.Compact) (now : Instant) : h.sweepChecked now = .ok (sweep now h) := by
  have hlater : (sweepSessions now h).1.booth.Compact :=
    hbooth.later (hbooth.orderly.sweepSessions now h.rules.sessionDuration) (h.booth.sweepSessions_sameFixtures _ _)
  rw [sweepChecked, endSessionsChecked_eq, Checked.ok_bind,
    andThenChecked_eq (sweepOfferChecked_eq hlater now)]
  rfl

/-- An announcement is due or not without a fault, if the interval is not zero. -/
theorem broadcastChecked_eq (hinterval : 0 < h.rules.broadcastInterval.toNat) (tick : Nat) :
    h.broadcastChecked tick = .ok (h.broadcast tick) := by
  unfold broadcastChecked broadcast
  rw [Checked.rem_of_pos hinterval, Checked.ok_bind]
  cases h.broadcasting with
  | false => rfl
  | true =>
    simp only [if_true, true_and]
    rfl

/-- The periodic work goes through without a fault, if the intervals are not zero. -/
theorem onTickChecked_eq (hbooth : h.booth.Compact) (hsweep : 0 < h.rules.sweepInterval.toNat)
    (hbroadcast : 0 < h.rules.broadcastInterval.toNat) (m : Moment) : h.onTickChecked m = .ok (h.onTick m) := by
  unfold onTickChecked onTick
  rw [Checked.rem_of_pos hsweep, Checked.ok_bind, sweepChecked_eq hbooth]
  dsimp only
  split
  · have hrules : (sweep m.now h).1.rules = h.rules := by rw [sweep_fst]
    rw [Checked.ok_bind]
    exact andThenChecked_eq (broadcastChecked_eq (hrules ▸ hbroadcast) m.tick)
  · exact andThenChecked_eq (broadcastChecked_eq hbroadcast m.tick)

/-- A host plays by the rules if they are its own, its register is in order and its limits are those of the rules. -/
structure Plays (r : Rules) (h : Host) : Prop where
  rules : h.rules = r
  orderly : h.booth.Orderly
  capacity : h.booth.capacity = r.boothCapacity.toNat
  maxUsers : h.booth.maxUsers = r.maxUsers.toNat

variable {r : Rules}

/-- A new host plays by the rules. -/
theorem plays_ofRules (id : NodeId) (r : Rules) : (ofRules id r).Plays r :=
  ⟨rfl, Booth.orderly_ofRules id r, rfl, rfl⟩

/-- A host goes on playing by the rules. -/
theorem Plays.run (hplays : h.Plays r) (events : List (Moment × Input)) : (h.run events).1.Plays r where
  rules := (h.run_rules events).trans hplays.rules
  orderly := run_orderly hplays.orderly events
  capacity := (h.run_sameFixtures events).capacity.trans hplays.capacity
  maxUsers := (h.run_sameFixtures events).maxUsers.trans hplays.maxUsers

/-- A host that plays by rules without a fault reacts to every input without one. -/
theorem Plays.reactChecked_eq (hplays : h.Plays r) (valid : r.Valid) (m : Moment) (i : Input) :
    h.reactChecked m i = .ok (h.react m i) := by
  have hbounds := valid.bounds
  have hmax := hbounds.maxUsers_le
  have hcapacity := hbounds.capacity_le
  have hbooth : h.booth.Compact :=
    ⟨hplays.orderly, by rw [hplays.capacity]; omega, by rw [hplays.maxUsers]; exact hmax⟩
  have hsweep : 0 < h.rules.sweepInterval.toNat := hplays.rules ▸ hbounds.sweepInterval_pos
  have hbroadcast : 0 < h.rules.broadcastInterval.toNat := hplays.rules ▸ hbounds.broadcastInterval_pos
  cases i with
  | message source message rssi snr => exact onMessageChecked_eq hbooth m.now source message
  | tick => exact onTickChecked_eq hbooth hsweep hbroadcast m
  | _ => rfl

end Host

end BoothFloor
