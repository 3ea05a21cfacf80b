import BoothFloor.Proofs.Floor.Sessions
import BoothFloor.Proofs.Host.Addressees
import BoothFloor.Proofs.Node.Counters
import BoothFloor.Proofs.Node.Speech

/-!
# A floor that loses nothing

In one round no node is sent more than four letters for each node of the crowd: a guest gets no more by the
account of `Lockstep.countP_meant_le`, and a host gets four from each visitor at most and from another host
only what is for everyone. As every letter can be read as well, nothing that is said on the floor is lost.
-/

namespace BoothFloor

namespace Node

variable {n : Node} {r : Rules}

/-- A node in its role speaks in the role that its id calls for. -/
theorem InRole.role_eq (hrole : n.InRole r) : n.machine.role = r.hosts.roleOf n.id := by
  cases hmachine : n.machine with
  | host h =>
    have hid : r.hosts.contains h.id = true := (hrole.host hmachine).role
    rw [Node.id, hmachine]
    exact (if_pos hid).symm
  | visitor v =>
    have hid : r.hosts.contains v.id = false := (hrole.visitor hmachine).role
    rw [Node.id, hmachine]
    exact (if_neg (Bool.eq_false_iff.mp hid)).symm

/-- Before the tick of a turn without intents, only the start calls for messages for everyone. -/
theorem callout_before_le (n : Node) (now : Instant) : ((n.before now).map Host.callout).sum ≤ 1 := by
  have hopening : (n.opening.map Host.callout).sum ≤ 1 := by
    unfold opening
    split
    · exact Nat.zero_le 1
    · exact Nat.le_refl 1
  have hheard : (n.heard.map Host.callout).sum = 0 := by
    refine List.sum_eq_zero fun k hk => ?_
    obtain ⟨i, hi, rfl⟩ := List.mem_map.mp hk
    obtain ⟨_, _, _, _, rfl⟩ := n.heard_messages i hi
    rfl
  have htimer (fires : Bool) (kind : TimerKind) :
      ((if fires then [Input.timer kind] else []).map Host.callout).sum = 0 := by
    split <;> rfl
  unfold before news
  simp only [List.map_append, List.sum_append, hheard, htimer]
  omega

end Node

namespace Floor

/-- A floor between two rounds on which nothing that was said has been lost. -/
structure Lossless (r : Rules) (guests : List NodeId) (radio : Radio) (f : Floor) (post : List Letter) : Prop
    extends f.Lockstep r guests radio post where
  forVisitors : ∀ n ∈ f.nodes, ∀ h, n.machine = .host h → h.ForVisitors
  /-- Everything that was said can be said in the role of the speaker. -/
  speech : ∀ l ∈ post, l.message.IsFrom (r.hosts.roleOf l.source)
  /-- Every node has all that was said to it in its inbox. -/
  full : ∀ n ∈ f.nodes, n.inbox.frames.items = Letter.arrivals radio post n.id
  kept : ∀ n ∈ f.nodes, n.inbox.frames.overwritten = 0 ∧ n.counters.framesDropped = 0

variable {r : Rules} {guests : List NodeId} {radio : Radio} {f f' : Floor} {post : List Letter} {n : Node}
  {now : Instant} {b : NodeId}

/-- On a floor of fresh nodes nothing has been lost. -/
theorem lossless_fresh (r : Rules) (guests : List NodeId) (radio : Radio) {f : Floor}
    (hnodes : f.nodes = (r.hosts.ids ++ guests).map (Node.fresh r)) : f.Lossless r guests radio [] := by
  have hfresh : ∀ n ∈ f.nodes, ∃ id, n = Node.fresh r id := by
    rw [hnodes]
    intro n hn
    obtain ⟨id, -, rfl⟩ := List.mem_map.mp hn
    exact ⟨id, rfl⟩
  refine { lockstep_fresh r guests radio hnodes with
    forVisitors := fun n hn h hmachine => ?_
    speech := fun l hl => absurd hl List.not_mem_nil
    full := fun n hn => ?_
    kept := fun n hn => ?_ }
  all_goals obtain ⟨id, rfl⟩ := hfresh n hn
  · obtain rfl := Node.host_of_fresh hmachine
    exact Host.forVisitors_ofRules id r
  · rfl
  · exact ⟨rfl, rfl⟩

/-- A node with room for its mail overwrites nothing when it settles. -/
theorem settled_overwritten (h : n.Waits) (f : Floor) (radio : Radio) (now : Instant)
    (hroom : (Letter.arrivals radio (f.post now) n.id).length ≤ n.rules.frameDepth.toNat) :
    (f.settled radio now n).inbox.frames.overwritten = n.inbox.frames.overwritten := by
  obtain ⟨hempty, hwaits⟩ := h.step now fun _ => true
  have hdepth := hwaits.depth
  rw [n.step_rules] at hdepth
  rw [settled, Node.foldl_deliver]
  dsimp only
  rw [Node.foldl_deliver_frames, Mailbox.overwritten_foldl_push_of_le hwaits.connected, n.step_overwritten]
  rw [hempty, List.length_nil]
  omega

/-- A node that can read its mail drops nothing when it settles. -/
theorem settled_framesDropped (f : Floor) (radio : Radio) (now : Instant)
    (hlegible : ∀ frame ∈ n.inbox.frames.items, (n.rules.hear frame).isSome = true) :
    (f.settled radio now n).counters.framesDropped = n.counters.framesDropped := by
  rw [settled, Node.foldl_deliver]
  exact Node.step_framesDropped hlegible now _

namespace Lossless

/-- A host has two letters for another one at most, and those are for everyone. -/
theorem countP_host_letters_le (h : f.Lossless r guests radio post) (crowd : Crowd r guests) (hn : n ∈ f.nodes)
    {host : Host} (hmachine : n.machine = .host host) (hb : r.isHost b = true) (now : Instant) :
    (n.letters now).countP (fun x => Letter.meant b ⟨n.id, x.1, x.2⟩) ≤ 2 := by
  have hcount : (n.letters now).countP (fun x => Letter.meant b ⟨n.id, x.1, x.2⟩) ≤
      (n.letters now).countP (reaches b) :=
    List.countP_mono_left fun x _ hmeant => Letter.reaches_of_meant hmeant
  have hcallout := Host.run_callout ((h.roles n hn).host hmachine).serves (h.forVisitors n hn host hmachine) hb
    (h.signed crowd hn now)
  have hletters : n.letters now = Action.sent (host.run (n.events now)).2 := by
    rw [Node.letters, hmachine, Machine.run_host]
  have hevents : ((n.events now).map fun e => Host.callout e.2) =
      (n.before now).map Host.callout ++ [Host.callout .tick] := by
    rw [(h.roles n hn).waits.events, List.map_map, List.map_append]
    rfl
  have hbefore := n.callout_before_le now
  rw [hevents, List.sum_append, List.sum_singleton] at hcallout
  rw [← hletters] at hcallout
  exact Nat.le_trans hcount (Nat.le_trans hcallout (Nat.add_le_add_right hbefore 1))

/-- A visitor has four letters for a host at most. -/
theorem countP_visitor_letters_le (h : f.Lossless r guests radio post) (crowd : Crowd r guests)
    (hradio : ∀ a b, (radio a b).isSome = true) (hn : n ∈ f.nodes) {v : Visitor}
    (hmachine : n.machine = .visitor v) (b : NodeId) (now : Instant) :
    (n.letters now).countP (fun x => Letter.meant b ⟨n.id, x.1, x.2⟩) ≤ 4 := by
  have herrand := (h.said_letters crowd hradio hn hmachine now).errand
  have hmeant : (n.letters now).countP (fun x => Letter.meant b ⟨n.id, x.1, x.2⟩) =
      (n.letters now).countP (·.1 = b) := by
    refine List.countP_congr fun x hx => ?_
    have hdest : x.1.isBroadcast = false := NodeId.isBroadcast_of_free
      (crowd.free _ (List.mem_append_left _ (IdRange.mem_ids_iff.mpr (herrand.isHost hx))))
    rw [Letter.meant_iff (by exact hdest), decide_eq_true_iff]
    exact eq_comm
  have hletters : n.letters now = Action.sent (v.run (n.events now)).2 := by
    rw [Node.letters, hmachine, Machine.run_visitor]
  rw [hmeant]
  exact herrand.countP_dest_le (by rw [hletters]; exact v.run_acceptances _) b

/-- A host gets four letters from each node at most. -/
theorem countP_host_meant_le (h : f.Lossless r guests radio post) (crowd : Crowd r guests)
    (hradio : ∀ a b, (radio a b).isSome = true) (hb : r.isHost b = true) (now : Instant) :
    (f.post now).countP (Letter.meant b) ≤ 4 * (r.hosts.ids.length + guests.length) := by
  have hnode : ∀ n ∈ f.nodes, (n.letters now).countP (fun x => Letter.meant b ⟨n.id, x.1, x.2⟩) ≤ 4 := by
    intro n hn
    cases hmachine : n.machine with
    | host host => exact Nat.le_trans (h.countP_host_letters_le crowd hn hmachine hb now) (by decide)
    | visitor v => exact h.countP_visitor_letters_le crowd hradio hn hmachine b now
  have hlength : f.nodes.length = r.hosts.ids.length + guests.length := by
    rw [← List.length_append, ← h.ids, List.length_map]
  rw [Floor.post, List.countP_flatMap, ← hlength, Nat.mul_comm]
  refine Nat.le_trans (List.sum_le_sum fun n hn => ?_) (Nat.le_of_eq (by simp : (f.nodes.map fun _ => 4).sum = _))
  rw [Function.comp, List.countP_map]
  exact hnode n hn

/-- No node gets more than four letters for each node of the crowd. -/
theorem countP_meant_le_room (h : f.Lossless r guests radio post) (crowd : Crowd r guests)
    (hradio : ∀ a b, (radio a b).isSome = true) (hn : n ∈ f.nodes) (now : Instant) :
    (f.post now).countP (Letter.meant n.id) ≤ 4 * (r.hosts.ids.length + guests.length) := by
  cases hhost : r.isHost n.id with
  | true => exact h.countP_host_meant_le crowd hradio hhost now
  | false => exact h.countP_meant_le crowd hradio (h.mem_guests hn hhost) now

/-- What the nodes say in the next round can be said in the roles in which they speak. -/
theorem speech_round (h : f.Lossless r guests radio post) (now : Instant) :
    ∀ l ∈ f.post now, l.message.IsFrom (r.hosts.roleOf l.source) := by
  intro l hl
  obtain ⟨n, hn, hid, hletter⟩ := sender_of_mem_post hl
  rw [← hid, ← (h.roles n hn).role_eq]
  exact n.machine.run_allFrom (n.events now) (l.dest, l.message) hletter

/-- A node can read every frame of its inbox. -/
theorem hear_isSome (h : f.Lossless r guests radio post) (hn : n ∈ f.nodes) :
    ∀ frame ∈ n.inbox.frames.items, (n.rules.hear frame).isSome = true := by
  rw [h.full n hn, (h.roles n hn).rules]
  intro frame hframe
  obtain ⟨l, hl, harrival⟩ := List.mem_filterMap.mp hframe
  obtain ⟨-, reception, -, rfl⟩ := Letter.arrival_eq_some_iff.mp harrival
  have hread := Wire.decode_encode_append (h.speech l hl) []
  rw [List.append_nil] at hread
  rw [Rules.hear, hread]
  rfl

/-- The next round loses nothing either. -/
theorem round (h : f.Lossless r guests radio post) (crowd : Crowd r guests)
    (hradio : ∀ a b, (radio a b).isSome = true) (hnodes : f'.nodes = f.nodes.map (f.settled radio now)) :
    f'.Lossless r guests radio (f.post now) := by
  have hroom : ∀ n ∈ f.nodes, (Letter.arrivals radio (f.post now) n.id).length ≤ n.rules.frameDepth.toNat := by
    intro n hn
    rw [(h.roles n hn).rules]
    exact Nat.le_trans (Letter.length_arrivals_le _ _ _)
      (Nat.le_trans (h.countP_meant_le_room crowd hradio hn now) crowd.room)
  refine { h.toLockstep.round crowd hradio hnodes with
    forVisitors := forall_settled hnodes fun n hn host hmachine => ?_
    speech := h.speech_round now
    full := forall_settled hnodes fun n hn => ?_
    kept := forall_settled hnodes fun n hn => ?_ }
  · obtain ⟨before, hbefore, rfl⟩ := host_of_settled hmachine
    exact (h.forVisitors n hn before hbefore).run _
  · rw [settled_id]
    exact (settled_waits (h.roles n hn).waits f radio now).2.2 (hroom n hn)
  · rw [settled_overwritten (h.roles n hn).waits f radio now (hroom n hn),
      settled_framesDropped f radio now (h.hear_isSome hn)]
    exact h.kept n hn

end Lossless

end Floor

end BoothFloor
