import BoothFloor.Proofs.Floor.Load

/-!
# Sessions from one round to the next

A visitor that is inside a booth after a round was on the list of its host before that round, and the
invariant between two rounds holds again. An exit and an alert can cross each other, and so can a
confirmation and an alert; what settles each of these cases is the order in which the host has spoken and
that nobody ends a session and registers in one turn.
-/

namespace BoothFloor

namespace Floor

variable {r : Rules} {guests : List NodeId} {radio : Radio} {f f' : Floor} {post : List Letter} {n : Node}
  {now : Instant} {b : NodeId}

/-- A visitor that has settled was one before, and has run over the inputs of its step. -/
theorem visitor_of_settled {v : Visitor} (hmachine : (f.settled radio now n).machine = .visitor v) :
    ∃ before, n.machine = .visitor before ∧ v = (before.run (n.events now)).1 := by
  rw [f.settled_machine] at hmachine
  cases hrole : n.machine with
  | host h =>
    rw [hrole, Machine.run_host] at hmachine
    cases hmachine
  | visitor before =>
    rw [hrole, Machine.run_visitor] at hmachine
    exact ⟨before, rfl, (Machine.visitor.inj hmachine).symm⟩

/-- Whoever is inside a host's booth after its turn is inside once the floor has settled. -/
theorem inside_settled (hnodes : f'.nodes = f.nodes.map (f.settled radio now)) (hn : n ∈ f.nodes) {h : Host}
    (hmachine : n.machine = .host h) {u : NodeId} (hin : u ∈ (h.run (n.events now)).1.booth.activeUsers) :
    f'.Inside n.id u := by
  refine ⟨f.settled radio now n, ?_, (h.run (n.events now)).1, ?_, f.settled_id radio now n, hin⟩
  · rw [hnodes]
    exact List.mem_map_of_mem hn
  · rw [f.settled_machine, hmachine, Machine.run_host]

namespace Lockstep

/-- Nobody is inside a booth under the id for everyone. -/
theorem isBroadcast_of_inside (h : f.Lockstep r guests radio post) {u : NodeId} (hin : f.Inside b u) :
    u.isBroadcast = false := by
  obtain ⟨n, hn, host, hmachine, -, hu⟩ := hin
  exact ((h.roles n hn).host hmachine).addressed.active u hu

/-- What a guest hears from another node in its turn is what that node has said to it. -/
theorem events_told (h : f.Lockstep r guests radio post) (hradio : ∀ a b, (radio a b).isSome = true)
    (hn : n ∈ f.nodes) (hguest : n.id ∈ guests) (hother : b ≠ n.id) (now : Instant) :
    (n.events now).filterMap (·.2.from? b) =
      (Letter.sentBy post b).filterMap (Letter.reading n.id (r.hosts.roleOf b)) := by
  rw [(h.roles n hn).waits.events_from, h.told hradio hn hguest hother]

/-- A guest that hears a confirmation and no alert after it is inside the booth. -/
theorem inside_of_confirmed (h : f.Lockstep r guests radio post) (hradio : ∀ a b, (radio a b).isSome = true)
    (hn : n ∈ f.nodes) (hguest : n.id ∈ guests) (hother : b ≠ n.id) {first last : List (Moment × Input)}
    {m : Moment} {reason : RegisterReason} {rssi : Int16} {snr : Int8}
    (hevents : n.events now = first ++ (m, .message b (.registerResponse true reason) rssi snr) :: last)
    (hsilent : ∀ m rssi snr, (m, .message b .timeoutAlert rssi snr) ∉ last) : f.Inside b n.id := by
  have htold := h.events_told hradio hn hguest hother now
  have hconfirmed : Input.from? b (.message b (.registerResponse true reason) rssi snr) =
      some (.registerResponse true reason) := if_pos rfl
  rw [hevents, List.filterMap_append, List.filterMap_cons, hconfirmed] at htold
  obtain ⟨earlier, rest, hsplit, -, hrest⟩ := List.filterMap_eq_append_iff.mp htold.symm
  obtain ⟨skipped, x, later, hrest', -, hx, hlater⟩ := List.filterMap_eq_cons_iff.mp hrest
  obtain ⟨hreaches, hmsg⟩ := Letter.eq_of_reading hx rfl
  obtain ⟨dest, msg⟩ := x
  subst hmsg
  -- an alert said after the confirmation would have been heard after it
  have hunalerted : (dest, .timeoutAlert) ∉ later := by
    intro halert
    have hreaches : reaches n.id (dest, .timeoutAlert) = true := hreaches
    have hheard : Message.timeoutAlert ∈ last.filterMap (·.2.from? b) := by
      rw [← hlater]
      exact List.mem_filterMap.mpr ⟨_, halert, Letter.reading_of_isPlain hreaches rfl _⟩
    obtain ⟨m', rssi', snr', hmem⟩ := mem_of_from hheard
    exact hsilent m' rssi' snr' hmem
  have hinside : f.Inside b dest := by
    refine (h.confirmed b dest reason (earlier ++ skipped) later ?_).resolve_right hunalerted
    rw [hsplit, hrest', List.append_assoc]
  rw [reaches_own (h.isBroadcast_of_inside hinside)] at hreaches
  exact of_decide_eq_true hreaches ▸ hinside

/-- A visitor that is inside a booth after the next round is on the list of its host before it. -/
theorem inside_of_inUse (h : f.Lockstep r guests radio post) (hradio : ∀ a b, (radio a b).isSome = true)
    (hn : n ∈ f.nodes) {v : Visitor} (hmachine : n.machine = .visitor v) {start : Instant}
    (hin : (v.run (n.events now)).1.phase = .inUse b start) : f.Inside b n.id := by
  have hguest := h.guest_of_visitor hn hmachine
  have hother : b ≠ n.id := by
    have hbooth : (v.run (n.events now)).1.booth? = some b := by
      rw [Visitor.booth?, hin]
      rfl
    have hself := (((h.roles n hn).visitor hmachine).run (n.events now)).ne_self hbooth
    rw [v.run_id] at hself
    rw [Node.id, hmachine]
    exact hself
  rcases Visitor.inUse_of_run hin with
    ⟨⟨since, hphase⟩, hsilent⟩ | ⟨first, last, m, reason, rssi, snr, hevents, hsilent⟩
  · rcases h.inside n hn v b since hmachine hphase with hinside | halert
    · exact hinside
    · -- the alert would have been heard
      have hown : reaches n.id (n.id, .timeoutAlert) = true := by simp [reaches]
      have hheard : Message.timeoutAlert ∈ (n.events now).filterMap (·.2.from? b) := by
        rw [h.events_told hradio hn hguest hother now]
        exact List.mem_filterMap.mpr ⟨_, halert, Letter.reading_of_isPlain hown rfl _⟩
      obtain ⟨m, rssi, snr, hmem⟩ := mem_of_from hheard
      exact absurd hmem (hsilent m rssi snr)
  · exact h.inside_of_confirmed hradio hn hguest hother hevents hsilent

/-- A visitor that has not come to rest has neither ended a session nor left a queue. -/
theorem not_taken_leave (h : f.Lockstep r guests radio post) (hn : n ∈ f.nodes) {v : Visitor}
    (hmachine : n.machine = .visitor v) (hbusy : (v.run (n.events now)).1.phase ≠ .scanning) {n' : Node}
    (hn' : n' ∈ f.nodes) {m : Moment} {msg : Message} (hleave : msg = .exitRequest ∨ msg = .queueLeave)
    {rssi : Int16} {snr : Int8} : (m, .message n.id msg rssi snr) ∉ n'.events now := by
  intro hevent
  have hplain : msg.isPlain = true := by rcases hleave with rfl | rfl <;> rfl
  obtain ⟨dest, hsaid⟩ := h.mem_sentBy_of_event hn' hevent hplain
  have hrests : v.Resting := by
    apply (h.said n hn v hmachine).rests dest
    rcases hleave with rfl | rfl
    · exact .inl hsaid
    · exact .inr hsaid
  have hsome : post ≠ [] := List.ne_nil_of_mem (Letter.mem_sentBy.mp hsaid)
  exact hbusy (h.scanning_of_resting hn hsome hrests now)

/-- After the next round, a visitor inside a booth is on the list of its host or has been sent an alert. -/
theorem inside_round (h : f.Lockstep r guests radio post) (crowd : Crowd r guests)
    (hradio : ∀ a b, (radio a b).isSome = true) (hnodes : f'.nodes = f.nodes.map (f.settled radio now))
    (hn : n ∈ f.nodes) {v : Visitor} (hmachine : n.machine = .visitor v) {start : Instant}
    (hin : (v.run (n.events now)).1.phase = .inUse b start) :
    f'.Inside b n.id ∨ (n.id, .timeoutAlert) ∈ Letter.sentBy (f.post now) b := by
  obtain ⟨booth, hbooth, host, hhost, rfl, hu⟩ := h.inside_of_inUse hradio hn hmachine hin
  have hbusy : (v.run (n.events now)).1.phase ≠ .scanning := by
    rw [hin]
    nofun
  have hstays : ∀ m rssi snr, (m, .message n.id .exitRequest rssi snr) ∉ booth.events now :=
    fun _ _ _ => h.not_taken_leave hn hmachine hbusy hbooth (.inl rfl)
  rw [sentBy_post (h.distinct crowd) hbooth, Node.letters, hhost, Machine.run_host]
  exact (Host.run_active ((h.roles booth hbooth).host hhost).orderly hu hstays).imp_left
    (inside_settled hnodes hbooth hhost)

/-- After the next round, a visitor in touch with a booth has been offered a slot once at most. -/
theorem offered_round (h : f.Lockstep r guests radio post) (crowd : Crowd r guests) (hn : n ∈ f.nodes)
    {v : Visitor} (hmachine : n.machine = .visitor v)
    (hbooth : (v.run (n.events now)).1.booth? = some b) :
    (Letter.sentBy (f.post now) b).countP (isOffer n.id) ≤ 1 := by
  have hrole := ((h.roles n hn).visitor hmachine).run (n.events now)
  obtain ⟨booth, hn', rfl, host, hhost⟩ := h.exists_host (hrole.isHost hbooth)
  have hbusy : (v.run (n.events now)).1.phase ≠ .scanning := by
    intro hphase
    rw [Visitor.booth?, hphase] at hbooth
    cases hbooth
  have hevents := (h.roles booth hn').waits.events now
  have hevent {i : Input} (hi : i ∈ booth.before now) : (booth.moment now, i) ∈ booth.events now := by
    rw [hevents]
    exact List.mem_map_of_mem (List.mem_append_left _ hi)
  rw [sentBy_post (h.distinct crowd) hn', Node.letters, hhost, Machine.run_host, hevents]
  exact Host.turn_allowance ((h.roles booth hn').host hhost).serves (booth.before_external now)
    (fun s msg rssi snr hmem => h.signed crowd hn' now _ s msg rssi snr (hevent hmem))
    (fun rssi snr hmem => h.not_taken_leave hn hmachine hbusy hn' (.inr rfl) (hevent hmem))

/-- After the next round, whoever has been confirmed is on the list of the host or has been sent an alert
since. -/
theorem confirmed_round (h : f.Lockstep r guests radio post) (crowd : Crowd r guests)
    (hnodes : f'.nodes = f.nodes.map (f.settled radio now)) {u : NodeId} {reason : RegisterReason}
    {earlier later : List (NodeId × Message)}
    (hsent : Letter.sentBy (f.post now) b = earlier ++ (u, .registerResponse true reason) :: later) :
    f'.Inside b u ∨ (u, .timeoutAlert) ∈ later := by
  have hmem : (u, .registerResponse true reason) ∈ Letter.sentBy (f.post now) b := by
    rw [hsent]
    exact List.mem_append_right _ List.mem_cons_self
  obtain ⟨booth, hn, hid, hletter⟩ := sender_of_mem_post (Letter.mem_sentBy.mp hmem)
  obtain rfl : booth.id = b := hid
  rw [sentBy_post (h.distinct crowd) hn] at hsent
  cases hmachine : booth.machine with
  | visitor v =>
    rw [Node.letters, hmachine, Machine.run_visitor] at hletter
    cases Visitor.isRequest_of_run hletter
  | host host =>
    have hserving := (h.roles booth hn).host hmachine
    rw [Node.letters, hmachine, Machine.run_host] at hsent hletter
    obtain ⟨⟨m, rssi, snr, hasked⟩, hguest, -⟩ := Host.registered_of_confirmed hserving.orderly hletter
    obtain ⟨dest, hregister⟩ := h.mem_sentBy_of_event hn hasked rfl
    -- the same visitor has not ended a session in the same turn
    have hstays : ∀ m rssi snr, (m, .message u .exitRequest rssi snr) ∉ booth.events now := by
      intro m' rssi' snr' hevent
      obtain ⟨dest', hexit⟩ := h.mem_sentBy_of_event hn hevent rfl
      obtain ⟨n, hvisitor, rfl⟩ := h.exists_node (h.sources _ (Letter.mem_sentBy.mp hexit))
      rw [hserving.rules] at hguest
      obtain ⟨v, hv⟩ := (h.roles n hvisitor).exists_visitor hguest
      exact (h.said n hvisitor v hv).errand.not_register_of_exit hexit hregister
    exact (Host.active_of_run_confirms hserving.orderly hstays hsent).imp_left
      (inside_settled hnodes hn hmachine)

/-- The invariant between two rounds holds again after the next one. -/
theorem round (h : f.Lockstep r guests radio post) (crowd : Crowd r guests)
    (hradio : ∀ a b, (radio a b).isSome = true) (hnodes : f'.nodes = f.nodes.map (f.settled radio now)) :
    f'.Lockstep r guests radio (f.post now) := by
  refine ⟨?_, ?_, .inl ?_, ?_, ?_, ?_, ?_, ?_, ?_, ?_⟩
  · rw [hnodes, List.map_map, ← h.ids]
    exact List.map_congr_left fun n _ => f.settled_id radio now n
  · exact forall_settled hnodes fun n hn => (h.roles n hn).settled f radio now (h.signed crowd hn now)
  · exact forall_settled hnodes fun n _ => f.settled_started radio now n
  · intro l hl
    obtain ⟨n, hn, hid, -⟩ := sender_of_mem_post hl
    exact hid ▸ h.mem_ids hn
  · refine forall_settled hnodes fun n hn => ?_
    rw [f.settled_id]
    exact (settled_waits (h.roles n hn).waits f radio now).2.1
  · refine forall_settled hnodes fun n hn hguest => ?_
    rw [f.settled_id] at hguest ⊢
    refine (settled_waits (h.roles n hn).waits f radio now).2.2 ?_
    rw [(h.roles n hn).rules]
    exact Nat.le_trans (Letter.length_arrivals_le _ _ _)
      (Nat.le_trans (h.countP_meant_le crowd hradio hguest now) crowd.room)
  · refine forall_settled hnodes fun n hn v hmachine => ?_
    obtain ⟨before, hbefore, rfl⟩ := visitor_of_settled hmachine
    rw [f.settled_id, sentBy_post (h.distinct crowd) hn]
    exact h.said_letters crowd hradio hn hbefore now
  · refine forall_settled hnodes fun n hn v b hmachine hbooth => ?_
    obtain ⟨before, hbefore, rfl⟩ := visitor_of_settled hmachine
    rw [f.settled_id]
    exact h.offered_round crowd hn hbefore hbooth
  · refine forall_settled hnodes fun n hn v b start hmachine hphase => ?_
    obtain ⟨before, hbefore, rfl⟩ := visitor_of_settled hmachine
    rw [f.settled_id]
    exact h.inside_round crowd hradio hnodes hn hbefore hphase
  · exact fun b u reason earlier later hsent => h.confirmed_round crowd hnodes hsent

end Lockstep

end Floor

end BoothFloor
