import BoothFloor.Proofs.Floor.Crowd
import BoothFloor.Proofs.Message.Wire
import BoothFloor.Proofs.Visitor.Errand

/-!
# What a node hears of the post

The letters of a round are those of its nodes, and what a node hears in the next round was said in one of
them. A node that has received all that is meant for it hears every sender in the sender's own order.
-/

namespace BoothFloor

namespace Letter

/-- What a node has said in some letters, in order. -/
def sentBy (post : List Letter) (id : NodeId) : List (NodeId × Message) :=
  (post.filter (·.source = id)).map fun l => (l.dest, l.message)

/-- What a letter says to a node, if it comes from node `b` and can be read. -/
def told (r : Rules) (b id : NodeId) (l : Letter) : Option Message :=
  if l.source = b ∧ l.meant id then (Wire.decode (Wire.encode l.message) (r.hosts.roleOf b)).toOption
  else none

/-- A letter that is not for everyone is meant for one node. -/
theorem meant_iff {l : Letter} (hdest : l.dest.isBroadcast = false) {id : NodeId} :
    l.meant id = true ↔ id = l.dest := by
  change (decide (id = l.dest) || (l.dest.isBroadcast && decide (id ≠ l.source))) = true ↔ _
  rw [hdest, Bool.false_and, Bool.or_false, decide_eq_true_eq]

/-- What a node with some role says to a user in a message, if the message reaches the user. -/
def reading (u : NodeId) (role : Role) (x : NodeId × Message) : Option Message :=
  if reaches u x then (Wire.decode (Wire.encode x.2) role).toOption else none

/-- A message without text that reaches a user is read as it was written. -/
theorem reading_of_isPlain {u : NodeId} {x : NodeId × Message} (hreaches : reaches u x = true)
    (hplain : x.2.isPlain = true) (role : Role) : reading u role x = some x.2 := by
  rw [reading, if_pos hreaches, Wire.decode_encode_of_isPlain role hplain]
  rfl

/-- A message without text is read only where it was written. -/
theorem eq_of_reading {u : NodeId} {role : Role} {x : NodeId × Message} {msg : Message}
    (h : reading u role x = some msg) (hplain : msg.isPlain = true) : reaches u x = true ∧ x.2 = msg := by
  unfold reading at h
  split at h
  · next hreaches =>
    cases hdecode : Wire.decode (Wire.encode x.2) role with
    | error e =>
      rw [hdecode] at h
      cases h
    | ok msg' =>
      rw [hdecode] at h
      obtain rfl := Option.some.inj h
      exact ⟨hreaches, Wire.eq_of_decode_encode hdecode hplain⟩
  · cases h

/-- A letter of another node reaches those for whom it is meant. -/
theorem meant_eq_reaches {l : Letter} {id : NodeId} (h : l.source ≠ id) :
    l.meant id = reaches id (l.dest, l.message) := by
  have hother : id ≠ l.source := h.symm
  simp [meant, transmission, Transmission.addresses, reaches, hother, @eq_comm _ id l.dest]

/-- Whoever a letter is meant for is reached by its message. -/
theorem reaches_of_meant {l : Letter} {id : NodeId} (h : l.meant id = true) :
    reaches id (l.dest, l.message) = true := by
  change (decide (id = l.dest) || (l.dest.isBroadcast && decide (id ≠ l.source))) = true at h
  rw [Bool.or_eq_true, Bool.and_eq_true, decide_eq_true_iff] at h
  rw [reaches, Bool.or_eq_true, decide_eq_true_iff]
  exact h.imp Eq.symm And.left

/-- What has been said in some letters was said in one of them. -/
theorem mem_sentBy {post : List Letter} {id dest : NodeId} {msg : Message} :
    (dest, msg) ∈ sentBy post id ↔ ⟨id, dest, msg⟩ ∈ post := by
  unfold sentBy
  rw [List.mem_map]
  constructor
  · rintro ⟨l, hl, heq⟩
    obtain ⟨hmem, hsource⟩ := List.mem_filter.mp hl
    obtain ⟨rfl, rfl⟩ := Prod.mk.inj heq
    obtain rfl := of_decide_eq_true hsource
    exact hmem
  · intro hmem
    exact ⟨_, List.mem_filter.mpr ⟨hmem, by simp⟩, rfl⟩

end Letter

/-- What an input says, if it is a message from node `b`. -/
def Input.from? (b : NodeId) : Input → Option Message
  | message s msg _ _ => if s = b then some msg else none
  | _ => none

/-- What some inputs say as messages from a node are messages from it. -/
theorem mem_of_from {b : NodeId} {msg : Message} {events : List (Moment × Input)}
    (h : msg ∈ events.filterMap (·.2.from? b)) : ∃ m rssi snr, (m, .message b msg rssi snr) ∈ events := by
  obtain ⟨⟨m, i⟩, hmem, hfrom⟩ := List.mem_filterMap.mp h
  cases i with
  | message s msg' rssi snr =>
    simp only [Input.from?] at hfrom
    split at hfrom
    · next hs =>
      obtain rfl := Option.some.inj hfrom
      subst hs
      exact ⟨m, rssi, snr, hmem⟩
    · cases hfrom
  | _ => cases hfrom

namespace Floor

variable {f : Floor} {now : Instant}

/-- Every letter of a round is one that its sender has sent. -/
theorem sender_of_mem_post {l : Letter} (h : l ∈ f.post now) :
    ∃ n ∈ f.nodes, n.id = l.source ∧ (l.dest, l.message) ∈ n.letters now := by
  obtain ⟨n, hn, hl⟩ := List.mem_flatMap.mp h
  obtain ⟨x, hx, rfl⟩ := List.mem_map.mp hl
  exact ⟨n, hn, rfl, hx⟩

/-- What a node has said in the letters of a round is what it has sent. -/
theorem sentBy_post (distinct : (f.nodes.map Node.id).Nodup) {n : Node} (hn : n ∈ f.nodes) :
    Letter.sentBy (f.post now) n.id = n.letters now := by
  have hown (m : Node) : Letter.sentBy ((m.letters now).map fun x => ⟨m.id, x.1, x.2⟩) n.id =
      if m.id = n.id then m.letters now else [] := by
    unfold Letter.sentBy
    rw [List.filter_map, List.map_map]
    split
    · next heq =>
      rw [List.filter_eq_self.mpr fun x _ => by simp [heq]]
      exact List.map_id _
    · next hne =>
      rw [List.filter_eq_nil_iff.mpr fun x _ => by simp [hne]]
      rfl
  have hall : Letter.sentBy (f.post now) n.id =
      f.nodes.flatMap fun m => if m.id = n.id then m.letters now else [] := by
    unfold post Letter.sentBy
    rw [List.filter_flatMap, List.map_flatMap]
    exact List.flatMap_congr fun m _ => hown m
  rw [hall]
  clear hall
  generalize f.nodes = nodes at distinct hn
  induction nodes with
  | nil => cases hn
  | cons m rest ih =>
    obtain ⟨hfirst, hrest⟩ := List.nodup_cons.mp distinct
    rw [List.flatMap_cons]
    rcases List.mem_cons.mp hn with rfl | hn
    · have hothers : (rest.flatMap fun m => if m.id = n.id then m.letters now else []) = [] := by
        rw [List.flatMap_eq_nil_iff]
        intro m hm
        rw [if_neg fun heq : m.id = n.id => hfirst (heq ▸ List.mem_map_of_mem hm)]
      rw [if_pos rfl, hothers, List.append_nil]
    · have hother : m.id ≠ n.id := fun heq => hfirst (heq ▸ List.mem_map_of_mem hn)
      rw [if_neg hother, List.nil_append]
      exact ih hrest hn

end Floor

namespace Node

variable {n : Node} {now : Instant} {radio : Radio} {post : List Letter}

/-- The inputs of the next turn before the tick, if there are no intents. -/
def before (n : Node) (now : Instant) : List Input :=
  n.opening ++ (n.news now ++ if n.retries now then [.timer .retry] else [])

/-- A node that waits for mail has the start, the news and the tick for inputs. -/
theorem Waits.events (h : n.Waits) (now : Instant) :
    n.events now = (n.before now ++ [Input.tick]).map (n.moment now, ·) := by
  rw [Node.events, inputs, h.asked, before]
  simp only [List.nil_append, List.append_assoc]

/-- Once it has started, a node that waits for mail has the inputs of a turn after the first. -/
theorem Waits.events_of_started (h : n.Waits) (hstarted : n.started = true) (now : Instant) :
    n.events now = (Visitor.turnInputs n.heard (n.selects now) (n.retries now)).map (n.moment now, ·) := by
  have hopening : n.opening = [] := by
    rw [opening, if_pos hstarted]
  rw [h.events, before, hopening, List.nil_append]
  rfl

/-- Before the tick of a turn without intents there are the start, messages and timers. -/
theorem before_external (n : Node) (now : Instant) :
    ∀ i ∈ n.before now, i = .start ∨ i.isExternal = true := by
  intro i hi
  unfold before opening news at hi
  simp only [List.mem_append] at hi
  rcases hi with hi | (hi | hi) | hi
  · split at hi
    · cases hi
    · exact .inl (List.mem_singleton.mp hi)
  · obtain ⟨_, _, _, _, rfl⟩ := n.heard_messages i hi
    exact .inr rfl
  · split at hi
    · obtain rfl := List.mem_singleton.mp hi
      exact .inr rfl
    · cases hi
  · split at hi
    · obtain rfl := List.mem_singleton.mp hi
      exact .inr rfl
    · cases hi

/-- A message that a node is given was said in a letter that is meant for it. -/
theorem letter_of_event (hmail : n.inbox.frames.items ⊆ Letter.arrivals radio post n.id) {m : Moment}
    {s : NodeId} {msg : Message} {rssi : Int16} {snr : Int8}
    (hevent : (m, .message s msg rssi snr) ∈ n.events now) :
    ∃ l ∈ post, l.source = s ∧ l.meant n.id = true ∧
      Wire.decode (Wire.encode l.message) (n.rules.hosts.roleOf s) = .ok msg := by
  obtain ⟨frame, hframe, hsource, hdecode⟩ := frame_of_event hevent
  obtain ⟨l, hl, harrival⟩ := List.mem_filterMap.mp (hmail hframe)
  obtain ⟨hmeant, r, -, rfl⟩ := Letter.arrival_eq_some_iff.mp harrival
  exact ⟨l, hl, hsource, hmeant, hdecode⟩

/-- What a node is told by another one in a turn, it hears. -/
theorem Waits.events_from (h : n.Waits) (now : Instant) (b : NodeId) :
    (n.events now).filterMap (·.2.from? b) = n.heard.filterMap (Input.from? b) := by
  rw [h.events, List.filterMap_map]
  change (n.before now ++ [Input.tick]).filterMap (Input.from? b) = _
  unfold before opening news
  simp only [List.filterMap_append]
  have hstart : (if n.started then [] else [Input.start]).filterMap (Input.from? b) = [] := by
    split <;> rfl
  have htimer (fires : Bool) (kind : TimerKind) :
      (if fires then [Input.timer kind] else []).filterMap (Input.from? b) = [] := by
    split <;> rfl
  rw [hstart, htimer, htimer]
  simp [Input.from?]

/-- A node hears what the letters say to it, in order, if all of them have arrived. -/
theorem told_of_arrivals (h : n.Waits) (hmail : n.inbox.frames.items = Letter.arrivals radio post n.id)
    (hradio : ∀ a b, (radio a b).isSome = true) (b : NodeId) :
    n.heard.filterMap (Input.from? b) = post.filterMap (Letter.told n.rules b n.id) := by
  rw [h.heard, hmail, Letter.arrivals, List.filterMap_filterMap, List.filterMap_filterMap]
  refine List.filterMap_congr fun l _ => ?_
  obtain ⟨reception, hreception⟩ := Option.isSome_iff_exists.mp (hradio l.source n.id)
  unfold Letter.arrival Letter.told
  by_cases hmeant : l.meant n.id = true
  · rw [if_pos hmeant, hreception]
    simp only [Option.map_some, Option.bind_some, Rules.hear, hmeant, and_true]
    by_cases hsource : l.source = b
    · subst hsource
      rw [if_pos rfl]
      cases Wire.decode (Wire.encode l.message) (n.rules.hosts.roleOf l.source) with
      | error e => rfl
      | ok msg => simp [Input.from?, Except.toOption]
    · rw [if_neg hsource]
      cases Wire.decode (Wire.encode l.message) (n.rules.hosts.roleOf l.source) with
      | error e => rfl
      | ok msg => simp [Input.from?, hsource]
  · simp [hmeant]

end Node

end BoothFloor
