import BoothFloor.Proofs.Floor.Post
import BoothFloor.Proofs.Host.Allowance
import BoothFloor.Proofs.Host.Session
import BoothFloor.Proofs.Visitor.Session

/-!
# A floor between two rounds

Between two rounds the letters of the last one wait in the inboxes. The invariant `Floor.Lockstep` says
what they have to do with the states of the nodes: a visitor inside a booth is on the list of its host or
will find an alert in its mail, and whatever else is on its way fits what the sender has done since.
-/

namespace BoothFloor

namespace Floor

/-- The booth that some node of a floor runs has a user inside. -/
def Inside (f : Floor) (booth user : NodeId) : Prop :=
  ∃ n ∈ f.nodes, ∃ h, n.machine = .host h ∧ n.id = booth ∧ user ∈ h.booth.activeUsers

/-- The nodes of a crowd between two rounds, and the letters of the last round. -/
structure Lockstep (r : Rules) (guests : List NodeId) (radio : Radio) (f : Floor) (post : List Letter) :
    Prop where
  ids : f.nodes.map Node.id = r.hosts.ids ++ guests
  roles : ∀ n ∈ f.nodes, n.InRole r
  begun : (∀ n ∈ f.nodes, n.started = true) ∨ post = [] ∧ ∀ n ∈ f.nodes, n = Node.fresh r n.id
  sources : ∀ l ∈ post, l.source ∈ r.hosts.ids ++ guests
  /-- What is in an inbox has been said. -/
  mail : ∀ n ∈ f.nodes, n.inbox.frames.items <:+ Letter.arrivals radio post n.id
  /-- Nothing that was said to a guest is lost. -/
  whole : ∀ n ∈ f.nodes, n.id ∈ guests → n.inbox.frames.items = Letter.arrivals radio post n.id
  said : ∀ n ∈ f.nodes, ∀ v, n.machine = .visitor v → Visitor.Said r (Letter.sentBy post n.id) v
  offered : ∀ n ∈ f.nodes, ∀ v b, n.machine = .visitor v → v.booth? = some b →
    (Letter.sentBy post b).countP (isOffer n.id) ≤ 1
  inside : ∀ n ∈ f.nodes, ∀ v b start, n.machine = .visitor v → v.phase = .inUse b start →
    f.Inside b n.id ∨ (n.id, .timeoutAlert) ∈ Letter.sentBy post b
  confirmed : ∀ b u reason earlier later,
    Letter.sentBy post b = earlier ++ (u, .registerResponse true reason) :: later →
      f.Inside b u ∨ (u, .timeoutAlert) ∈ later

variable {r : Rules} {guests : List NodeId} {radio : Radio} {f : Floor} {post : List Letter}

/-- A floor of fresh nodes is between two rounds, of which the first did not take place. -/
theorem lockstep_fresh (r : Rules) (guests : List NodeId) (radio : Radio) {f : Floor}
    (hnodes : f.nodes = (r.hosts.ids ++ guests).map (Node.fresh r)) : f.Lockstep r guests radio [] := by
  have hfresh : ∀ n ∈ f.nodes, n = Node.fresh r n.id := by
    rw [hnodes]
    intro n hn
    obtain ⟨id, -, rfl⟩ := List.mem_map.mp hn
    rw [Node.id_fresh]
  have hvisitor : ∀ n ∈ f.nodes, ∀ v, n.machine = .visitor v → v = .ofRules n.id r := by
    intro n hn v hmachine
    rw [hfresh n hn] at hmachine
    exact Node.visitor_of_fresh hmachine
  have hempty : ∀ n ∈ f.nodes, n.inbox.frames.items = [] := by
    intro n hn
    rw [hfresh n hn]
    rfl
  refine ⟨?_, ?_, .inr ⟨rfl, hfresh⟩, ?_, ?_, ?_, ?_, ?_, ?_, ?_⟩
  · rw [hnodes, Node.map_id_fresh]
  · intro n hn
    rw [hfresh n hn]
    exact Node.inRole_fresh r n.id
  · exact fun l hl => absurd hl List.not_mem_nil
  · intro n hn
    rw [hempty n hn]
    exact List.nil_suffix
  · exact fun n hn _ => hempty n hn
  · exact fun n _ v _ => Visitor.said_nil r v
  · exact fun n _ v b _ _ => Nat.zero_le 1
  · intro n hn v b start hmachine hphase
    rw [hvisitor n hn v hmachine] at hphase
    cases hphase
  · intro b u reason earlier later hsent
    simp [Letter.sentBy] at hsent

namespace Lockstep

/-- Different nodes have different ids. -/
theorem distinct (h : f.Lockstep r guests radio post) (crowd : Crowd r guests) :
    (f.nodes.map Node.id).Nodup := by
  rw [h.ids]
  exact crowd.distinct

/-- Every id of the crowd is that of a node. -/
theorem exists_node (h : f.Lockstep r guests radio post) {id : NodeId} (hid : id ∈ r.hosts.ids ++ guests) :
    ∃ n ∈ f.nodes, n.id = id := by
  rw [← h.ids] at hid
  exact List.mem_map.mp hid

/-- The id of a node is one of the crowd. -/
theorem mem_ids (h : f.Lockstep r guests radio post) {n : Node} (hn : n ∈ f.nodes) :
    n.id ∈ r.hosts.ids ++ guests := by
  rw [← h.ids]
  exact List.mem_map_of_mem hn

/-- A node whose id is not a host's is a guest. -/
theorem mem_guests (h : f.Lockstep r guests radio post) {n : Node} (hn : n ∈ f.nodes)
    (hid : r.isHost n.id = false) : n.id ∈ guests := by
  rcases List.mem_append.mp (h.mem_ids hn) with hhost | hguest
  · rw [Rules.isHost, IdRange.mem_ids_iff.mp hhost] at hid
    cases hid
  · exact hguest

/-- A node with the id of a host runs a booth. -/
theorem exists_host (h : f.Lockstep r guests radio post) {b : NodeId} (hb : r.isHost b = true) :
    ∃ n ∈ f.nodes, n.id = b ∧ ∃ host, n.machine = .host host := by
  obtain ⟨n, hn, rfl⟩ := h.exists_node (List.mem_append_left _ (IdRange.mem_ids_iff.mpr hb))
  exact ⟨n, hn, rfl, (h.roles n hn).exists_host hb⟩

variable {n : Node} {now : Instant}

/-- A message that a node is given was said by its sender. -/
theorem mem_sentBy_of_event (h : f.Lockstep r guests radio post) (hn : n ∈ f.nodes) {m : Moment}
    {s : NodeId} {msg : Message} {rssi : Int16} {snr : Int8}
    (hevent : (m, .message s msg rssi snr) ∈ n.events now) (hplain : msg.isPlain = true) :
    ∃ dest, (dest, msg) ∈ Letter.sentBy post s := by
  obtain ⟨l, hl, rfl, -, hdecode⟩ := Node.letter_of_event (h.mail n hn).subset hevent
  refine ⟨l.dest, Letter.mem_sentBy.mpr ?_⟩
  rw [← Wire.eq_of_decode_encode hdecode hplain]
  exact hl

/-- The senders of the messages that a node is given are nodes of the crowd. -/
theorem signed (h : f.Lockstep r guests radio post) (crowd : Crowd r guests) (hn : n ∈ f.nodes)
    (now : Instant) : Signed (n.events now) := by
  intro m s msg rssi snr hevent
  obtain ⟨l, hl, rfl, -, -⟩ := Node.letter_of_event (h.mail n hn).subset hevent
  exact NodeId.isBroadcast_of_free (crowd.free _ (h.sources l hl))

/-- A guest hears what every other node has said to it, in order. -/
theorem told (h : f.Lockstep r guests radio post) (hradio : ∀ a b, (radio a b).isSome = true)
    (hn : n ∈ f.nodes) (hguest : n.id ∈ guests) {b : NodeId} (hother : b ≠ n.id) :
    n.heard.filterMap (Input.from? b) =
      (Letter.sentBy post b).filterMap (Letter.reading n.id (r.hosts.roleOf b)) := by
  have hrole := h.roles n hn
  rw [Node.told_of_arrivals hrole.waits (h.whole n hn hguest) hradio, hrole.rules, Letter.sentBy,
    List.filterMap_map, List.filterMap_filter]
  refine List.filterMap_congr fun l _ => ?_
  unfold Letter.told Letter.reading
  by_cases hsource : l.source = b
  · subst hsource
    simp [Letter.meant_eq_reaches hother]
  · simp [hsource]

/-- A visitor is a guest. -/
theorem guest_of_visitor (h : f.Lockstep r guests radio post) (hn : n ∈ f.nodes) {v : Visitor}
    (hmachine : n.machine = .visitor v) : n.id ∈ guests := by
  refine h.mem_guests hn ?_
  rw [Node.id, hmachine]
  exact ((h.roles n hn).visitor hmachine).role

/-- A guest is offered a slot by its own booth once at most in a turn. -/
theorem countP_offers_le_one (h : f.Lockstep r guests radio post)
    (hradio : ∀ a b, (radio a b).isSome = true) (hn : n ∈ f.nodes) {v : Visitor}
    (hmachine : n.machine = .visitor v) {b : NodeId} (hbooth : v.booth? = some b) :
    n.heard.countP (Visitor.offers b) ≤ 1 := by
  have hguest := h.guest_of_visitor hn hmachine
  have hother : b ≠ n.id := by
    rw [Node.id, hmachine]
    exact ((h.roles n hn).visitor hmachine).ne_self hbooth
  have hcount : n.heard.countP (Visitor.offers b) =
      (n.heard.filterMap (Input.from? b)).countP (· = .queueReady) := by
    rw [List.countP_filterMap]
    refine List.countP_congr fun i hi => ?_
    obtain ⟨s, msg, rssi, snr, rfl⟩ := n.heard_messages i hi
    by_cases hs : s = b
    · cases msg <;> simp [Visitor.offers, Input.from?, hs]
    · cases msg <;> simp [Visitor.offers, Input.from?, hs]
  rw [hcount, h.told hradio hn hguest hother, List.countP_filterMap]
  refine Nat.le_trans (List.countP_mono_left fun x _ hx => ?_) (h.offered n hn v b hmachine hbooth)
  obtain ⟨msg, hmsg, hready⟩ := Option.map_eq_some_iff.mp
    ((Option.getD_eq_iff.mp hx).resolve_right fun hnone => absurd hnone.2 Bool.false_ne_true)
  obtain ⟨hreaches, heq⟩ := Letter.eq_of_reading hmsg (by rw [of_decide_eq_true hready]; rfl)
  rw [isOffer, hreaches, heq]
  exact hready

/-- A visitor that has started goes on one errand in the next round. -/
theorem said_of_started (h : f.Lockstep r guests radio post) (crowd : Crowd r guests)
    (hradio : ∀ a b, (radio a b).isSome = true) (hn : n ∈ f.nodes) {v : Visitor}
    (hmachine : n.machine = .visitor v) (hstarted : n.started = true) (now : Instant) :
    Visitor.Said r (Action.sent (v.run (n.events now)).2) (v.run (n.events now)).1 := by
  have hrole := (h.roles n hn).visitor hmachine
  have hopening : n.opening = [] := by
    rw [Node.opening, if_pos hstarted]
  have hretries : n.retries now = true →
      ∀ act ∈ (v.run ((Visitor.upToSelection n.heard (n.selects now)).map (n.moment now, ·))).2,
        act.settles .retryTimeout = false := by
    intro hretries
    have hsettles := Node.settles_of_retries hretries
    rw [hopening, hmachine] at hsettles
    change ∀ act ∈ ((Machine.visitor v).run ((n.news now).map (n.moment now, ·))).2, _ at hsettles
    rw [Machine.run_visitor] at hsettles
    exact hsettles
  have hhosts : v.rules.hosts.ids ≠ [] := by
    rw [hrole.rules]
    exact crowd.hosts_ne_nil
  have hscan : 0 < v.rules.scanInterval.toNat := by
    rw [hrole.rules]
    exact crowd.valid.bounds.scanInterval_pos
  obtain ⟨limit, hlimit⟩ := crowd.limit
  have hholds : v.rules.clientLimit = .ok limit := by
    rw [hrole.rules]
    exact hlimit
  have hsaid := Visitor.said_of_turn (m := n.moment now) hrole.grounded hscan hholds
    (Rules.clientLimit_pos crowd.valid hlimit) hhosts n.heard_messages
    (fun b hbooth => h.countP_offers_le_one hradio hn hmachine hbooth) (n.selects now) hretries
  rw [(h.roles n hn).waits.events_of_started hstarted, ← hrole.rules]
  exact hsaid

/-- A visitor that starts looks around in its first round. -/
theorem said_of_fresh (crowd : Crowd r guests) (hwaits : n.Waits) (hfresh : n = Node.fresh r n.id) {v : Visitor}
    (hmachine : n.machine = .visitor v) (now : Instant) :
    Visitor.Said r (Action.sent (v.run (n.events now)).2) (v.run (n.events now)).1 := by
  have hv : v = .ofRules n.id r := Node.visitor_of_fresh (hfresh ▸ hmachine)
  have hheard : n.heard = [] := by
    rw [hwaits.heard, hfresh]
    rfl
  have hopening : n.opening = [.start] := by
    rw [hfresh]
    rfl
  have hevents : n.events now = (Input.start :: Visitor.turnInputs [] (n.selects now)
      (n.retries now)).map (n.moment now, ·) := by
    rw [hwaits.events, Node.before, hopening, Node.news, hheard]
    rfl
  obtain ⟨hscans, -⟩ := Visitor.first_turn n.id r (n.moment now) crowd.valid.bounds.scanInterval_pos
    (n.selects now) (n.retries now)
  rw [hevents, hv, hscans]
  refine ⟨.scan, ?_⟩
  rintro b (hmem | hmem) <;> simp at hmem

/-- In the next round a visitor goes on one errand. -/
theorem said_letters (h : f.Lockstep r guests radio post) (crowd : Crowd r guests)
    (hradio : ∀ a b, (radio a b).isSome = true) (hn : n ∈ f.nodes) {v : Visitor}
    (hmachine : n.machine = .visitor v) (now : Instant) :
    Visitor.Said r (n.letters now) (v.run (n.events now)).1 := by
  have hletters : n.letters now = Action.sent (v.run (n.events now)).2 := by
    rw [Node.letters, hmachine, Machine.run_visitor]
  rw [hletters]
  rcases h.begun with hstarted | ⟨-, hfresh⟩
  · exact h.said_of_started crowd hradio hn hmachine (hstarted n hn) now
  · exact said_of_fresh crowd (h.roles n hn).waits (hfresh n hn) hmachine now

/-- A visitor that rests has no booth after the next round. -/
theorem scanning_of_resting (h : f.Lockstep r guests radio post) (hn : n ∈ f.nodes) {v : Visitor}
    (hsome : post ≠ []) (hrests : v.Resting) (now : Instant) :
    (v.run (n.events now)).1.phase = .scanning := by
  have hstarted := h.begun.resolve_right fun hfresh => hsome hfresh.1
  rw [(h.roles n hn).waits.events_of_started (hstarted n hn)]
  exact Visitor.run_of_resting hrests n.heard_messages _ _

end Lockstep

end Floor

end BoothFloor
