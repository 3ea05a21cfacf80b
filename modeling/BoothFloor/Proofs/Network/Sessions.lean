import BoothFloor.Proofs.Host.Confirmation
import BoothFloor.Proofs.Message.Wire
import BoothFloor.Proofs.Network
import BoothFloor.Proofs.Node.Step

/-!
# Agreement on sessions

Whatever the link does, a visitor believes that it has been at a booth only if the booth has it on its
list. The invariant, `Network.Agreed`, speaks of every place where a confirmation can be: the air, the
inboxes and the visits. It survives loss, repetition and delay because the list of a booth only grows.
-/

namespace BoothFloor

namespace Network

/-- The booth that some node runs has admitted a user. -/
def Registers (net : Network) (booth user : NodeId) : Prop :=
  ∃ n ∈ net.nodes, ∃ h, n.machine = .host h ∧ n.id = booth ∧ user ∈ h.booth.registered

/-- A frame has a source of its own, and confirms no registration but one that has taken place. -/
def Truthful (net : Network) (source dest : NodeId) (bytes : List UInt8) : Prop :=
  source.isReserved = false ∧
    ∀ role reason, Wire.decode bytes role = .ok (.registerResponse true reason) →
      dest.isReserved = false ∧ net.Registers source dest

/-- What visitors believe, have been told or may yet be told of registrations is so. -/
structure Agreed (net : Network) : Prop where
  free : ∀ n ∈ net.nodes, n.id.isReserved = false
  orderly : ∀ n ∈ net.nodes, ∀ h, n.machine = .host h → h.booth.Orderly
  air : ∀ t ∈ net.air, net.Truthful t.source t.dest t.bytes
  inbox : ∀ n ∈ net.nodes, ∀ f ∈ n.inbox.frames.items, net.Truthful f.source n.id f.bytes
  visits : ∀ n ∈ net.nodes, ∀ v, n.machine = .visitor v → ∀ b ∈ v.visits, net.Registers b n.id
  present : ∀ n ∈ net.nodes, ∀ v, n.machine = .visitor v → v.PresentVisited

/-- Nothing has been said in a network of fresh nodes. -/
theorem agreed_fresh {ids : List NodeId} {r : Rules} (free : ∀ id ∈ ids, id.isReserved = false) :
    Agreed { nodes := ids.map (Node.fresh r) } where
  free := by
    intro n hn
    obtain ⟨id, hid, rfl⟩ := List.mem_map.mp hn
    rw [Node.id_fresh]
    exact free id hid
  orderly := by
    intro n hn h hmachine
    obtain ⟨id, -, rfl⟩ := List.mem_map.mp hn
    obtain rfl := Node.host_of_fresh hmachine
    exact Booth.orderly_ofRules id r
  air := fun t ht => absurd ht List.not_mem_nil
  inbox := by
    intro n hn f hf
    obtain ⟨id, -, rfl⟩ := List.mem_map.mp hn
    cases hf
  visits := by
    intro n hn v hmachine b hb
    obtain ⟨id, -, rfl⟩ := List.mem_map.mp hn
    obtain rfl := Node.visitor_of_fresh hmachine
    cases hb
  present := by
    intro n hn v hmachine b start hphase
    obtain ⟨id, -, rfl⟩ := List.mem_map.mp hn
    obtain rfl := Node.visitor_of_fresh hmachine
    cases hphase

variable {net net' : Network}

/-- A frame stays truthful as long as no booth forgets a user. -/
theorem Truthful.mono (hmono : ∀ b u, net.Registers b u → net'.Registers b u) {source dest : NodeId}
    {bytes : List UInt8} (h : net.Truthful source dest bytes) : net'.Truthful source dest bytes :=
  ⟨h.1, fun role reason hdecode =>
    ⟨(h.2 role reason hdecode).1, hmono _ _ (h.2 role reason hdecode).2⟩⟩

/-- A node after the alteration of one is that one altered, or another one as it was. -/
theorem mem_nodes_alter {id : NodeId} {f : Node → Node} {n' : Node} (h : n' ∈ (net.alter id f).nodes) :
    ∃ n ∈ net.nodes, n' = n ∨ n.id = id ∧ n' = f n := by
  obtain ⟨n, hn, heq⟩ := List.mem_map.mp h
  refine ⟨n, hn, ?_⟩
  split at heq
  · next hid => exact .inr ⟨hid, heq.symm⟩
  · exact .inl heq.symm

/-- No booth forgets a user when a node is altered whose own booth does not. -/
theorem registers_alter {id : NodeId} {f : Node → Node} (hid : ∀ n ∈ net.nodes, (f n).id = n.id)
    (hbooth : ∀ n ∈ net.nodes, ∀ h, n.machine = .host h →
      ∃ h', (f n).machine = .host h' ∧ ∀ u ∈ h.booth.registered, u ∈ h'.booth.registered)
    (b u : NodeId) (hreg : net.Registers b u) : (net.alter id f).Registers b u := by
  obtain ⟨n, hn, h, hmachine, hb, hu⟩ := hreg
  by_cases hnid : n.id = id
  · obtain ⟨h', hmachine', hkept⟩ := hbooth n hn h hmachine
    refine ⟨f n, List.mem_map.mpr ⟨n, hn, if_pos hnid⟩, h', hmachine', ?_, hkept u hu⟩
    rw [hid n hn, hb]
  · exact ⟨n, List.mem_map.mpr ⟨n, hn, if_neg hnid⟩, h, hmachine, hb, hu⟩

/-- Work on the inbox of a node keeps agreement, if every frame that it brings in is truthful. -/
theorem Agreed.alter_inbox (h : net.Agreed) {id : NodeId} {f : Node → Node}
    (hmachine : ∀ n ∈ net.nodes, (f n).machine = n.machine)
    (hframes : ∀ n ∈ net.nodes, n.id = id → ∀ frame ∈ (f n).inbox.frames.items,
      frame ∈ n.inbox.frames.items ∨ net.Truthful frame.source n.id frame.bytes) :
    (net.alter id f).Agreed := by
  have hid : ∀ n ∈ net.nodes, (f n).id = n.id := fun n hn => congrArg Machine.id (hmachine n hn)
  have hmono : ∀ b u, net.Registers b u → (net.alter id f).Registers b u :=
    registers_alter hid fun n hn h' hh => ⟨h', (hmachine n hn).trans hh, fun _ hu => hu⟩
  have hsame : ∀ n' ∈ (net.alter id f).nodes, ∃ n ∈ net.nodes, n'.machine = n.machine := by
    intro n' hn'
    obtain ⟨n, hn, rfl | ⟨-, rfl⟩⟩ := mem_nodes_alter hn'
    · exact ⟨n', hn, rfl⟩
    · exact ⟨n, hn, hmachine n hn⟩
  refine ⟨?_, ?_, ?_, ?_, ?_, ?_⟩
  · intro n' hn'
    obtain ⟨n, hn, heq⟩ := hsame n' hn'
    rw [Node.id, heq]
    exact h.free n hn
  · intro n' hn' host hhost
    obtain ⟨n, hn, heq⟩ := hsame n' hn'
    exact h.orderly n hn host (heq ▸ hhost)
  · exact fun t ht => (h.air t ht).mono hmono
  · intro n' hn' frame hframe
    obtain ⟨n, hn, rfl | ⟨hnid, rfl⟩⟩ := mem_nodes_alter hn'
    · exact (h.inbox n' hn frame hframe).mono hmono
    · rw [hid n hn]
      exact ((hframes n hn hnid frame hframe).elim (h.inbox n hn frame) (fun htrue => htrue)).mono hmono
  · intro n' hn' v hv b hb
    obtain ⟨n, hn, heq⟩ := hsame n' hn'
    rw [Node.id, heq]
    exact hmono _ _ (h.visits n hn v (heq ▸ hv) b hb)
  · intro n' hn' v hv
    obtain ⟨n, hn, heq⟩ := hsame n' hn'
    exact h.present n hn v (heq ▸ hv)

/-- What a step puts on the air is truthful once the step has been taken. -/
theorem Agreed.truthful_of_step (h : net.Agreed) {n : Node} (hn : n ∈ net.nodes) {now : Instant}
    {takes : Nat → Bool} {t : Transmission} (ht : t ∈ transmissions n now takes)
    (hstep : (n.step now takes).1 ∈ net'.nodes) : net'.Truthful t.source t.dest t.bytes := by
  obtain ⟨dest, msg, hsent, rfl⟩ := Node.mem_transmissions_step ht
  refine ⟨h.free n hn, fun role reason hdecode => ?_⟩
  obtain rfl := Wire.eq_of_decode_encode hdecode rfl
  have hmachine := n.step_machine now takes
  cases hrole : n.machine with
  | host host =>
    rw [hrole, Machine.run_host] at hsent hmachine
    obtain ⟨⟨m, rssi, snr, hasked⟩, -, hlisted⟩ := Host.registered_of_confirmed (h.orderly n hn host hrole) hsent
    obtain ⟨f, hf, rfl, -⟩ := Node.frame_of_event hasked
    exact ⟨(h.inbox n hn f hf).1, _, hstep, _, hmachine, n.step_id now takes, hlisted⟩
  | visitor v =>
    rw [hrole, Machine.run_visitor] at hsent
    cases Visitor.isRequest_of_run hsent

/-- A step keeps agreement. -/
theorem Agreed.step (h : net.Agreed) (id : NodeId) (now : Instant) (takes : Nat → Bool) :
    (net.move (.step id now takes)).Agreed := by
  have hmono : ∀ b u, net.Registers b u → (net.move (.step id now takes)).Registers b u := by
    refine registers_alter (fun n _ => n.step_id now takes) fun n _ host hhost => ?_
    have hmachine := n.step_machine now takes
    rw [hhost, Machine.run_host] at hmachine
    exact ⟨_, hmachine, fun u hu => host.run_registered _ hu⟩
  refine ⟨?_, ?_, ?_, ?_, ?_, ?_⟩
  · intro n' hn'
    obtain ⟨n, hn, rfl | ⟨-, rfl⟩⟩ := mem_nodes_alter hn'
    · exact h.free n' hn
    · rw [n.step_id]
      exact h.free n hn
  · intro n' hn' host hhost
    obtain ⟨n, hn, rfl | ⟨-, rfl⟩⟩ := mem_nodes_alter hn'
    · exact h.orderly n' hn host hhost
    · obtain ⟨before, hrole, rfl⟩ := Node.host_of_step hhost
      exact Host.run_orderly (h.orderly n hn before hrole) _
  · intro t ht
    rcases List.mem_append.mp ht with hold | hnew
    · exact (h.air t hold).mono hmono
    · obtain ⟨n, hn, hsent⟩ := List.mem_flatMap.mp hnew
      obtain ⟨hn, hid⟩ := List.mem_filter.mp hn
      exact h.truthful_of_step hn hsent (List.mem_map.mpr ⟨n, hn, if_pos (by simpa using hid)⟩)
  · intro n' hn' f hf
    obtain ⟨n, hn, rfl | ⟨-, rfl⟩⟩ := mem_nodes_alter hn'
    · exact (h.inbox n' hn f hf).mono hmono
    · rw [n.step_id]
      exact (h.inbox n hn f (Node.mem_frames_of_step hf)).mono hmono
  · intro n' hn' v hv b hb
    obtain ⟨n, hn, rfl | ⟨-, rfl⟩⟩ := mem_nodes_alter hn'
    · exact hmono _ _ (h.visits n' hn v hv b hb)
    · rw [n.step_id]
      obtain ⟨before, hrole, rfl⟩ := Node.visitor_of_step hv
      rcases Visitor.mem_visits_run hb with hold | ⟨m, reason, rssi, snr, htold⟩
      · exact hmono _ _ (h.visits n hn before hrole b hold)
      · obtain ⟨f, hf, rfl, hdecode⟩ := Node.frame_of_event htold
        exact hmono _ _ ((h.inbox n hn f hf).2 _ reason hdecode).2
  · intro n' hn' v hv
    obtain ⟨n, hn, rfl | ⟨-, rfl⟩⟩ := mem_nodes_alter hn'
    · exact h.present n' hn v hv
    · obtain ⟨before, hrole, rfl⟩ := Node.visitor_of_step hv
      exact Visitor.run_presentVisited (h.present n hn before hrole) _

/-- The arrival of a frame keeps agreement. -/
theorem Agreed.deliver (h : net.Agreed) (t : Transmission) (id : NodeId) (reception : Reception) :
    (net.move (.deliver t id reception)).Agreed := by
  simp only [Network.move]
  split
  · next harrives =>
    obtain ⟨hair, haddressed⟩ := harrives
    refine h.alter_inbox (fun _ _ => rfl) fun n hn hid f hf => ?_
    rcases Node.mem_frames_deliver hf with hold | rfl
    · exact .inl hold
    · refine .inr ⟨(h.air t hair).1, fun role reason hdecode => ?_⟩
      obtain ⟨hfree, hreg⟩ := (h.air t hair).2 role reason hdecode
      -- a confirmation is never meant for everyone
      have hdest : n.id = t.dest := by
        have hbroadcast : t.dest.isBroadcast = false := (Bool.or_eq_false_iff.mp hfree).2
        rw [hid]
        simpa [Transmission.addresses, hbroadcast] using haddressed
      rw [hdest]
      exact ⟨hfree, hreg⟩
  · exact h

/-- Every move keeps agreement. -/
theorem Agreed.move (h : net.Agreed) (mv : Move) : (net.move mv).Agreed := by
  cases mv with
  | step id now takes => exact h.step id now takes
  | deliver t id reception => exact h.deliver t id reception
  | submit id intent =>
    exact h.alter_inbox (fun _ _ => rfl) fun n _ _ _ hf => .inl (n.inbox.submit_frames intent ▸ hf)
  | confirm id => exact h.alter_inbox (fun _ _ => rfl) fun _ _ _ _ hf => .inl hf

/-- The ids of the nodes are the same after every move. -/
theorem move_ids (net : Network) (mv : Move) :
    (net.move mv).nodes.map Node.id = net.nodes.map Node.id := by
  have halter (id : NodeId) (f : Node → Node) (hid : ∀ n, (f n).id = n.id) :
      (net.alter id f).nodes.map Node.id = net.nodes.map Node.id := by
    rw [alter, List.map_map]
    refine List.map_congr_left fun n _ => ?_
    dsimp only [Function.comp]
    split
    · exact hid n
    · rfl
  cases mv with
  | step id now takes => exact halter id _ fun n => n.step_id now takes
  | deliver t id reception =>
    simp only [move]
    split
    · exact halter id _ fun _ => rfl
    · rfl
  | submit id intent => exact halter id _ fun _ => rfl
  | confirm id => exact halter id _ fun _ => rfl

/-- The ids of the nodes are the same after a run. -/
theorem run_ids (net : Network) (moves : List Move) :
    (net.run moves).nodes.map Node.id = net.nodes.map Node.id := by
  apply run_keeps (P := fun later : Network => later.nodes.map Node.id = net.nodes.map Node.id) rfl
  intro later mv hlater
  rw [later.move_ids mv, hlater]

/-- Among nodes with different ids, a node is found by its id. -/
theorem node?_eq_some {n : Node} (distinct : (net.nodes.map Node.id).Nodup) (hn : n ∈ net.nodes) :
    net.node? n.id = some n := by
  obtain ⟨found, hfound⟩ : ∃ found, net.node? n.id = some found :=
    Option.isSome_iff_exists.mp (List.find?_isSome.mpr ⟨n, hn, by simp⟩)
  have hid : found.id = n.id := by simpa using List.find?_some hfound
  rw [hfound, List.inj_on_of_nodup_map distinct (List.mem_of_find?_eq_some hfound) hn hid]

/-- In a network of nodes with ids of their own and common rules that can be played by, whatever the
link does to the frames, whichever steps are taken at whichever readings of the clocks and whatever is
wished for at the consoles: every booth that a visitor has been at or is at has it on its list. -/
theorem run_visits_registered (ids : List NodeId) (r : Rules) (valid : r.Valid) (distinct : ids.Nodup)
    (free : ∀ id ∈ ids, id.isReserved = false) :
    ∃ net, ofIds ids r = .ok net ∧ ∀ (moves : List Move) (u b : NodeId) (n : Node) (v : Visitor),
      (net.run moves).node? u = some n → n.machine = .visitor v →
      (b ∈ v.visits ∨ ∃ start, v.phase = .inUse b start) →
      ∃ n' h, (net.run moves).node? b = some n' ∧ n'.machine = .host h ∧ h.id = b ∧
        u ∈ h.booth.registered := by
  refine ⟨_, ofIds_eq valid free, fun moves u b n v hu hv hvisit => ?_⟩
  have hagreed : Agreed _ := run_keeps (agreed_fresh (r := r) free) (fun _ mv hnet => hnet.move mv) moves
  have hids := (run_ids { nodes := ids.map (Node.fresh r) } moves).trans (Node.map_id_fresh r ids)
  have hn : n ∈ (Network.run { nodes := ids.map (Node.fresh r) } moves).nodes := List.mem_of_find?_eq_some hu
  have hnid : n.id = u := by simpa using List.find?_some hu
  have hmem : b ∈ v.visits := hvisit.elim id fun ⟨start, hphase⟩ => hagreed.present n hn v hv b start hphase
  obtain ⟨n', hn', h, hmachine, rfl, hlisted⟩ := hagreed.visits n hn v hv b hmem
  refine ⟨n', h, node?_eq_some (by rw [hids]; exact distinct) hn', hmachine, ?_, hnid ▸ hlisted⟩
  rw [Node.id, hmachine]
  rfl

/-- A visitor is let in over a link that delivers its request twice and the confirmation late. -/
def lateConfirmation : List Move :=
  let visitor : NodeId := ⟨4⟩
  let booth : NodeId := ⟨1⟩
  let always : Nat → Bool := fun _ => true
  let pass (a b : NodeId) (m : Message) : Move := .deliver ⟨a, b, Wire.encode m⟩ b ⟨-40, 8⟩
  [.step visitor ⟨0⟩ always, pass visitor booth .boothScan, .step booth ⟨5⟩ always,
    pass booth visitor (.boothAnnounce ⟨booth, 0, 2, 0⟩), .step visitor ⟨300⟩ always,
    pass visitor booth .connectRequest, .step booth ⟨7⟩ always,
    pass booth visitor (.boothInfo 0 2 0 (Rules.brisk.descriptionFor booth)),
    .step visitor ⟨310⟩ always, pass visitor booth .registerRequest,
    pass visitor booth .registerRequest, .step booth ⟨8⟩ always,
    pass booth visitor (.registerResponse true .success), .step visitor ⟨900⟩ always]

/-- The visitor has then been at the booth, and the booth has it on its list. -/
theorem run_visits_registered_lateConfirmation :
    Rules.brisk.Valid ∧ ∃ net n v n' h, ofIds [⟨1⟩, ⟨4⟩] .brisk = .ok net ∧
      (net.run lateConfirmation).node? ⟨4⟩ = some n ∧ n.machine = .visitor v ∧ ⟨1⟩ ∈ v.visits ∧
      (net.run lateConfirmation).node? ⟨1⟩ = some n' ∧ n'.machine = .host h ∧
      ⟨4⟩ ∈ h.booth.registered := by
  have hvalid : Rules.brisk.Valid := by decide
  have hfree : ∀ id ∈ [(⟨1⟩ : NodeId), ⟨4⟩], id.isReserved = false := by decide
  obtain ⟨net, hnet, hagreement⟩ := run_visits_registered [⟨1⟩, ⟨4⟩] .brisk hvalid (by decide) hfree
  obtain rfl := Except.ok.inj ((ofIds_eq hvalid hfree).symm.trans hnet)
  have hvisit : ((Network.run { nodes := [⟨1⟩, ⟨4⟩].map (Node.fresh .brisk) } lateConfirmation).node? ⟨4⟩).any
      (fun n => match n.machine with
        | .visitor v => decide (⟨1⟩ ∈ v.visits)
        | .host _ => false) = true := by decide +kernel
  obtain ⟨n, hn, hmachine⟩ := (Option.any_eq_true _ _).mp hvisit
  split at hmachine
  · next v hv =>
    have hmem : ⟨1⟩ ∈ v.visits := of_decide_eq_true hmachine
    obtain ⟨n', h, hn', hh, -, hlisted⟩ := hagreement lateConfirmation ⟨4⟩ ⟨1⟩ n v hn hv (.inl hmem)
    exact ⟨hvalid, _, n, v, n', h, hnet, hn, hv, hmem, hn', hh, hlisted⟩
  · cases hmachine

end Network

end BoothFloor
