import BoothFloor.Proofs.Floor.Lockstep
import BoothFloor.Proofs.Sums

/-!
# How much mail a guest can get

In one round the nodes of a crowd send a guest at most four letters for each of them. Every host says up to
three things by itself; all else is paid for by the letters of the round before, of which each visitor has
sent those of one errand. So the inbox of a guest holds all of its mail.
-/

namespace BoothFloor

/-- What a letter may cost a guest when a host reads it. -/
def Letter.fee (r : Rules) (u : NodeId) (l : Letter) : Nat :=
  if r.isHost l.source then 0 else Host.toll u l.source l.message

/-- What the letters of a round may cost a guest when the node `b` reads them. -/
def Letter.fees (r : Rules) (post : List Letter) (u b : NodeId) : Nat :=
  (post.map fun l => if l.meant b then l.fee r u else 0).sum

/-- How many messages a host may have for everyone when it starts: one, and none once there are letters. -/
def Letter.startup (post : List Letter) : Nat := if post = [] then 1 else 0

/-- How many letters the node `b` may have for a guest after it has read those of the last round. -/
def Letter.share (r : Rules) (post : List Letter) (u b : NodeId) : Nat :=
  if r.isHost b then 3 + startup post + fees r post u b else 0

/-- The toll for a message depends on its kind only. -/
theorem Host.toll_of_kind_eq {u s : NodeId} {m m' : Message} (h : m.kind = m'.kind) :
    toll u s m = toll u s m' := by
  cases m <;> cases m' <;> first | rfl | cases h

/-- An errand costs the visitor itself at most one message for each host and three more, and any other
guest two messages. -/
theorem Visitor.Errand.toll_le {r : Rules} {letters : List (NodeId × Message)}
    (h : Errand r letters) (u s : NodeId) :
    (letters.map fun x => Host.toll u s x.2).sum ≤ if s = u then r.hosts.ids.length + 3 else 2 := by
  cases h with
  | silence => exact Nat.zero_le _
  | scan =>
    rw [List.map_map]
    change (r.hosts.ids.map fun _ => if s = u then 1 else 0).sum ≤ _
    split <;> simp
  | connect booth | leave booth | exit booth =>
    simp only [List.map_cons, List.map_nil, List.sum_cons, List.sum_nil, Host.toll]
    split <;> omega
  | register booth hhost letters hletters hcount =>
    have hsome : 0 < r.hosts.ids.length := List.length_pos_of_mem (IdRange.mem_ids_iff.mpr hhost)
    have htoll : (letters.map fun x => Host.toll u s x.2).sum =
        letters.countP (·.2 = .registerRequest) * if s = u then 2 else 1 := by
      clear hcount
      induction letters with
      | nil => simp
      | cons x rest ih =>
        have hrest := ih fun y hy => hletters y (List.mem_cons_of_mem _ hy)
        rw [List.map_cons, List.sum_cons, hrest, List.countP_cons]
        rcases (hletters x List.mem_cons_self).2 with heq | heq
        · simp [heq, Host.toll]
        · simp only [heq, Host.toll, decide_true, if_true]
          split <;> omega
    rw [htoll]
    split <;> omega

namespace Floor

namespace Lockstep

variable {r : Rules} {guests : List NodeId} {radio : Radio} {f : Floor} {post : List Letter} {n : Node}
  {u : NodeId} {now : Instant}

/-- A visitor has no letter for a guest. -/
theorem meant_of_visitor (h : f.Lockstep r guests radio post) (crowd : Crowd r guests)
    (hradio : ∀ a b, (radio a b).isSome = true) (hn : n ∈ f.nodes) {v : Visitor}
    (hmachine : n.machine = .visitor v) (hu : u ∈ guests) {x : NodeId × Message}
    (hx : x ∈ n.letters now) : Letter.meant u ⟨n.id, x.1, x.2⟩ = false := by
  have hhost := (h.said_letters crowd hradio hn hmachine now).errand.isHost hx
  have hdest : x.1.isBroadcast = false := NodeId.isBroadcast_of_free
    (crowd.free _ (List.mem_append_left _ (IdRange.mem_ids_iff.mpr hhost)))
  rw [Bool.eq_false_iff, Ne, Letter.meant_iff (by exact hdest)]
  rintro rfl
  rw [crowd.guest _ hu] at hhost
  cases hhost

/-- What a host reads in a round costs a guest no more than the letters that are meant for the host. -/
theorem fee_before_le (h : f.Lockstep r guests radio post) (hn : n ∈ f.nodes) (u : NodeId) (now : Instant) :
    ((n.before now).map (Host.fee r u)).sum ≤
      n.opening.length + Letter.fees r post u n.id := by
  have hopening : (n.opening.map (Host.fee r u)).sum = n.opening.length := by
    unfold Node.opening
    split <;> rfl
  have htimer (fires : Bool) (kind : TimerKind) :
      ((if fires then [Input.timer kind] else []).map (Host.fee r u)).sum = 0 := by
    split <;> rfl
  have hheard : (n.heard.map (Host.fee r u)).sum ≤ Letter.fees r post u n.id := by
    obtain ⟨dropped, hdropped⟩ := h.mail n hn
    have hall : (((Letter.arrivals radio post n.id).filterMap r.hear).map (Host.fee r u)).sum ≤
        Letter.fees r post u n.id := by
      rw [Letter.arrivals, List.filterMap_filterMap]
      refine sum_filterMap_le (fun l i hi => ?_) post
      obtain ⟨frame, harrival, hread⟩ := Option.bind_eq_some_iff.mp hi
      obtain ⟨hmeant, reception, -, rfl⟩ := Letter.arrival_eq_some_iff.mp harrival
      unfold Rules.hear at hread
      split at hread
      · next msg hdecode =>
        obtain rfl := Option.some.inj hread
        simp only [Host.fee, Letter.fee]
        rw [if_pos hmeant, Host.toll_of_kind_eq (Wire.kind_of_decode_encode hdecode)]
      · cases hread
    rw [← hdropped, List.filterMap_append, List.map_append, List.sum_append] at hall
    rw [(h.roles n hn).waits.heard, (h.roles n hn).rules]
    omega
  unfold Node.before Node.news
  simp only [List.map_append, List.sum_append, hopening, htimer]
  omega

/-- What a host says to a guest in a round are three things at most, besides its start and what the
letters cost that are meant for it. -/
theorem countP_letters_le (h : f.Lockstep r guests radio post) (crowd : Crowd r guests) (hn : n ∈ f.nodes)
    {host : Host} (hmachine : n.machine = .host host) (hother : n.id ≠ u) (now : Instant) :
    (n.letters now).countP (fun x => Letter.meant u ⟨n.id, x.1, x.2⟩) ≤
      3 + n.opening.length + Letter.fees r post u n.id := by
  have hrole := (h.roles n hn).host hmachine
  have hevents := (h.roles n hn).waits.events now
  have hsigned := h.signed crowd hn now
  have hsource : ∀ s msg rssi snr, .message s msg rssi snr ∈ n.before now → s.isBroadcast = false := by
    intro s msg rssi snr hmem
    refine hsigned (n.moment now) s msg rssi snr ?_
    rw [hevents]
    exact List.mem_map_of_mem (List.mem_append_left _ hmem)
  have hturn := Host.turn_charge (u := u) (m := n.moment now) hrole.serves (n.before_external now) hsource
  have hfee := h.fee_before_le hn u now
  have hletters : n.letters now =
      Action.sent (host.run ((n.before now ++ [Input.tick]).map (n.moment now, ·))).2 := by
    rw [Node.letters, hmachine, Machine.run_host, hevents]
  have hcount : (n.letters now).countP (fun x => Letter.meant u ⟨n.id, x.1, x.2⟩) =
      (n.letters now).countP (reaches u) :=
    List.countP_congr fun x _ => by rw [Letter.meant_eq_reaches hother]
  rw [hcount, hletters]
  omega

/-- What the hosts are told of by the letters of a round costs a guest no more than these letters. -/
theorem sum_fee_meant_le (h : f.Lockstep r guests radio post) (crowd : Crowd r guests) (u : NodeId) :
    (r.hosts.ids.map (Letter.fees r post u)).sum ≤ (post.map (Letter.fee r u)).sum := by
  unfold Letter.fees
  rw [sum_sum_comm]
  refine List.sum_le_sum fun l hl => ?_
  by_cases hsource : r.isHost l.source = true
  · simp [Letter.fee, hsource]
  · rw [Bool.not_eq_true] at hsource
    obtain ⟨n, hn, hid⟩ := h.exists_node (h.sources l hl)
    obtain ⟨v, hmachine⟩ := (h.roles n hn).exists_visitor (hid ▸ hsource)
    have hsaid : (l.dest, l.message) ∈ Letter.sentBy post n.id := Letter.mem_sentBy.mpr (hid ▸ hl)
    have hhost : r.isHost l.dest = true := (h.said n hn v hmachine).errand.isHost hsaid
    have hdest : l.dest.isBroadcast = false := NodeId.isBroadcast_of_free
      (crowd.free _ (List.mem_append_left _ (IdRange.mem_ids_iff.mpr hhost)))
    simp only [Letter.meant_iff hdest]
    exact sum_ite_eq_le IdRange.nodup_ids l.dest (l.fee r u)

/-- The letters of a round cost a guest two messages for every guest, and one more for every host and for
itself. -/
theorem sum_fee_le (h : f.Lockstep r guests radio post) (crowd : Crowd r guests) (u : NodeId) :
    (post.map (Letter.fee r u)).sum ≤ 2 * guests.length + r.hosts.ids.length + 1 := by
  have hguests : guests.Nodup := (List.nodup_append.mp crowd.distinct).2.1
  have hparts := sum_le_sum_filter Letter.source (Letter.fee r u) h.sources
  rw [List.map_append, List.sum_append] at hparts
  have hhosts : (r.hosts.ids.map fun b =>
      ((post.filter fun l => l.source = b).map (Letter.fee r u)).sum).sum = 0 := by
    refine List.sum_eq_zero fun k hk => ?_
    obtain ⟨b, hb, rfl⟩ := List.mem_map.mp hk
    refine List.sum_eq_zero fun j hj => ?_
    obtain ⟨l, hl, rfl⟩ := List.mem_map.mp hj
    have hsource : l.source = b := of_decide_eq_true (List.mem_filter.mp hl).2
    have hhost : r.isHost l.source = true := hsource ▸ IdRange.mem_ids_iff.mp hb
    rw [Letter.fee, if_pos hhost]
  have hvisitors : ∀ g ∈ guests, ((post.filter fun l => l.source = g).map (Letter.fee r u)).sum ≤
      2 + if g = u then r.hosts.ids.length + 1 else 0 := by
    intro g hg
    have hguest := crowd.guest g hg
    obtain ⟨n, hn, rfl⟩ := h.exists_node (List.mem_append_right _ hg)
    obtain ⟨v, hmachine⟩ := (h.roles n hn).exists_visitor hguest
    have htoll := (h.said n hn v hmachine).errand.toll_le u n.id
    have hsame : ((post.filter fun l => l.source = n.id).map (Letter.fee r u)).sum =
        ((Letter.sentBy post n.id).map fun x => Host.toll u n.id x.2).sum := by
      rw [Letter.sentBy, List.map_map]
      refine congrArg List.sum (List.map_congr_left fun l hl => ?_)
      have hsource : l.source = n.id := of_decide_eq_true (List.mem_filter.mp hl).2
      simp [Letter.fee, hsource, hguest]
    rw [hsame]
    by_cases hself : n.id = u
    · rw [if_pos hself] at htoll ⊢
      omega
    · rw [if_neg hself] at htoll ⊢
      exact htoll
  have hown := sum_ite_eq_le hguests u (r.hosts.ids.length + 1)
  have hall := List.sum_le_sum hvisitors
  rw [List.sum_map_add, List.map_const', List.sum_replicate_nat] at hall
  omega

/-- A node that has not started yet announces itself once, and there are no letters before that. -/
theorem length_opening_le (h : f.Lockstep r guests radio post) (hn : n ∈ f.nodes) :
    n.opening.length ≤ Letter.startup post := by
  unfold Node.opening Letter.startup
  rcases h.begun with hstarted | ⟨hempty, -⟩
  · simp [hstarted n hn]
  · rw [if_pos hempty]
    split <;> simp

/-- A node has no more letters for a guest than its share. -/
theorem countP_letters_le_share (h : f.Lockstep r guests radio post) (crowd : Crowd r guests)
    (hradio : ∀ a b, (radio a b).isSome = true) (hn : n ∈ f.nodes) (hu : u ∈ guests) (now : Instant) :
    (n.letters now).countP (fun x => Letter.meant u ⟨n.id, x.1, x.2⟩) ≤ Letter.share r post u n.id := by
  cases hhost : r.isHost n.id with
  | true =>
    obtain ⟨host, hmachine⟩ := (h.roles n hn).exists_host hhost
    have hother : n.id ≠ u := by
      rintro rfl
      rw [crowd.guest _ hu] at hhost
      cases hhost
    have hletters := h.countP_letters_le crowd hn hmachine hother now
    have hstart := h.length_opening_le hn
    rw [Letter.share, if_pos hhost]
    omega
  | false =>
    obtain ⟨v, hmachine⟩ := (h.roles n hn).exists_visitor hhost
    have hnone : (n.letters now).countP (fun x => Letter.meant u ⟨n.id, x.1, x.2⟩) = 0 := by
      refine List.countP_eq_zero.mpr fun x hx => ?_
      rw [h.meant_of_visitor crowd hradio hn hmachine hu hx]
      nofun
    rw [hnone]
    exact Nat.zero_le _

/-- The shares of all nodes are those of the hosts. -/
theorem sum_share (h : f.Lockstep r guests radio post) (crowd : Crowd r guests) (u : NodeId) :
    (f.nodes.map fun n => Letter.share r post u n.id).sum =
      r.hosts.ids.length * (3 + Letter.startup post) + (r.hosts.ids.map (Letter.fees r post u)).sum := by
  have hids : f.nodes.map (fun n => Letter.share r post u n.id) =
      (r.hosts.ids ++ guests).map (Letter.share r post u) := by
    rw [← h.ids, List.map_map]
    rfl
  have hguests : (guests.map (Letter.share r post u)).sum = 0 := by
    refine List.sum_eq_zero fun k hk => ?_
    obtain ⟨g, hg, rfl⟩ := List.mem_map.mp hk
    simp [Letter.share, crowd.guest g hg]
  have hhosts : r.hosts.ids.map (Letter.share r post u) = r.hosts.ids.map fun b =>
      (3 + Letter.startup post) + Letter.fees r post u b :=
    List.map_congr_left fun b hb => if_pos (IdRange.mem_ids_iff.mp hb)
  rw [hids, List.map_append, List.sum_append, hguests, hhosts, List.sum_map_add, List.map_const',
    List.sum_replicate_nat]
  rfl

/-- A guest gets at most four letters for each node of the crowd. -/
theorem countP_meant_le (h : f.Lockstep r guests radio post) (crowd : Crowd r guests)
    (hradio : ∀ a b, (radio a b).isSome = true) (hu : u ∈ guests) (now : Instant) :
    (f.post now).countP (Letter.meant u) ≤ 4 * (r.hosts.ids.length + guests.length) := by
  have hpost : (f.post now).countP (Letter.meant u) =
      (f.nodes.map fun n => (n.letters now).countP fun x => Letter.meant u ⟨n.id, x.1, x.2⟩).sum := by
    rw [Floor.post, List.countP_flatMap]
    refine congrArg List.sum (List.map_congr_left fun n _ => ?_)
    exact List.countP_map
  have hshares : (f.post now).countP (Letter.meant u) ≤
      r.hosts.ids.length * (3 + Letter.startup post) + (post.map (Letter.fee r u)).sum := by
    have hnodes := List.sum_le_sum fun n hn => h.countP_letters_le_share crowd hradio hn hu now
    rw [← hpost, h.sum_share crowd] at hnodes
    exact Nat.le_trans hnodes (Nat.add_le_add_left (h.sum_fee_meant_le crowd u) _)
  have hsome : 0 < guests.length := List.length_pos_of_mem hu
  -- the first round pays for the start, each later one for the letters of the round before
  by_cases hempty : post = []
  · rw [Letter.startup, if_pos hempty, hempty, List.map_nil, List.sum_nil] at hshares
    omega
  · have hfee := h.sum_fee_le crowd u
    rw [Letter.startup, if_neg hempty] at hshares
    omega

end Lockstep

end Floor

end BoothFloor
