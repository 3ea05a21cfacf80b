import BoothFloor.Proofs.Mailbox
import BoothFloor.Proofs.Node.Step

/-!
# The mail of a round

What the nodes of a floor say in a round is one row of letters, and after the round every node has in its
inbox what was addressed to it, latest letters first to be kept. A node that waits for mail finds the
frames of its inbox announced, so in the next round it reads all of them.
-/

namespace BoothFloor

/-- A message on its way. -/
structure Letter where
  source : NodeId
  dest : NodeId
  message : Message
  deriving DecidableEq

namespace Letter

/-- The frame on the air that carries a letter. -/
def transmission (l : Letter) : Transmission := ⟨l.source, l.dest, Wire.encode l.message⟩

/-- Whether a letter is meant for a node. -/
def meant (id : NodeId) (l : Letter) : Bool := l.transmission.addresses id

/-- The frame as which a letter arrives at a node, if it is meant for the node and within its hearing. -/
def arrival (radio : Radio) (id : NodeId) (l : Letter) : Option Frame :=
  if l.meant id then (radio l.source id).map fun r => ⟨l.source, Wire.encode l.message, r.rssi, r.snr⟩
  else none

/-- The frames as which some letters arrive at a node. -/
def arrivals (radio : Radio) (post : List Letter) (id : NodeId) : List Frame :=
  post.filterMap (arrival radio id)

/-- A letter arrives at a node as a frame if it is meant for the node and within its hearing. -/
theorem arrival_eq_some_iff {radio : Radio} {id : NodeId} {l : Letter} {frame : Frame} :
    arrival radio id l = some frame ↔ l.meant id = true ∧
      ∃ r, radio l.source id = some r ∧ ⟨l.source, Wire.encode l.message, r.rssi, r.snr⟩ = frame := by
  rw [arrival, Option.ite_none_right_eq_some, Option.map_eq_some_iff]

/-- No more frames arrive at a node than there are letters meant for it. -/
theorem length_arrivals_le (radio : Radio) (post : List Letter) (id : NodeId) :
    (arrivals radio post id).length ≤ post.countP (meant id) := by
  rw [arrivals, List.length_filterMap_eq_countP]
  refine List.countP_mono_left fun l _ harrives => ?_
  obtain ⟨frame, hframe⟩ := Option.isSome_iff_exists.mp harrives
  exact (arrival_eq_some_iff.mp hframe).1

end Letter

namespace Node

variable {n : Node} {now : Instant}

/-- The messages that a node sends in its next step. -/
def letters (n : Node) (now : Instant) : List (NodeId × Message) :=
  Action.sent (n.machine.run (n.events now)).2

/-- A link that takes everything takes every message as it is. -/
theorem dispatch_always (sent : List (NodeId × Message)) :
    (dispatch (fun _ => true) sent).filter (·.taken) = sent.map fun x => ⟨x.1, x.2, true⟩ := by
  have hall : dispatch (fun _ => true) sent = sent.map fun x => ⟨x.1, x.2, true⟩ := by
    apply List.ext_getElem
    · simp [dispatch]
    · intro i _ _
      simp [dispatch]
  rw [hall, List.filter_map]
  exact congrArg _ (List.filter_eq_self.mpr fun _ _ => rfl)

/-- A step over a link that takes everything puts the node's letters on the air. -/
theorem transmissions_step (n : Node) (now : Instant) :
    RoundStep.transmissions ⟨(n.step now fun _ => true).1, (n.step now fun _ => true).2⟩ =
      (n.letters now).map fun x => Letter.transmission ⟨n.id, x.1, x.2⟩ := by
  have hid := n.step_id now fun _ => true
  have hsent : (n.turn now).sent = n.letters now := (n.turn_run now).2.1
  unfold RoundStep.transmissions
  change ((dispatch (fun _ => true) (n.turn now).sent).filter (·.taken)).map _ = _
  rw [dispatch_always, hsent, List.map_map]
  refine List.map_congr_left fun x _ => ?_
  simp only [Function.comp, Letter.transmission, hid]

/-- A node that has no intents to handle, whose frames are announced and whose inbox takes frames in and is as deep
as its rules say. -/
structure Waits (n : Node) : Prop where
  intents : n.inbox.intents.items = []
  announced : n.inbox.frames.items ≠ [] → n.inbox.signals.isSet .messageArrived = true
  depth : n.rules.frameDepth.toNat ≤ n.inbox.frames.depth
  connected : 0 < n.inbox.frames.receivers

/-- A node that waits for mail reads everything in its inbox. -/
theorem Waits.heard (h : n.Waits) : n.heard = n.inbox.frames.items.filterMap n.rules.hear := by
  unfold Node.heard
  split
  · rfl
  · next hunset =>
    have hempty : n.inbox.frames.items = [] := by
      by_contra hitems
      exact hunset (h.announced hitems)
    rw [hempty]
    rfl

/-- Nobody asks anything of such a node. -/
theorem Waits.asked (h : n.Waits) : n.asked = [] := by
  unfold Node.asked
  rw [h.intents]
  split <;> rfl

/-- After a step the inbox of such a node is empty, and the node waits for mail again. -/
theorem Waits.step (h : n.Waits) (now : Instant) (takes : Nat → Bool) :
    (n.step now takes).1.inbox.frames.items = [] ∧ (n.step now takes).1.Waits := by
  have hmail := n.turn_sameMail now
  have hitems : n.inbox.afterTurn.frames.items = [] := by
    rw [Inbox.afterTurn_frames]
    split
    · rfl
    · next hunset =>
      by_contra hitems
      exact hunset (h.announced hitems)
  have hfixtures : n.inbox.afterTurn.frames.depth = n.inbox.frames.depth ∧
      n.inbox.afterTurn.frames.receivers = n.inbox.frames.receivers := by
    rw [Inbox.afterTurn_frames]
    split <;> exact ⟨rfl, rfl⟩
  have hempty : (n.step now takes).1.inbox.frames.items = [] := by
    change (n.turn now).node.inbox.frames.items = []
    rw [hmail.frames, hitems]
  refine ⟨hempty, ?_, fun hne => absurd hempty hne, ?_, ?_⟩
  · change (n.turn now).node.inbox.intents.items = []
    rw [hmail.intents, Inbox.afterTurn_intents]
    split
    · rfl
    · exact h.intents
  · rw [step_rules]
    change _ ≤ (n.turn now).node.inbox.frames.depth
    rw [hmail.frames, hfixtures.1]
    exact h.depth
  · change 0 < (n.turn now).node.inbox.frames.receivers
    rw [hmail.frames, hfixtures.2]
    exact h.connected

/-- What a row of frames that is handed in leaves of an inbox. -/
def handIn (b : Inbox) (row : List Frame) : Inbox := row.foldl (fun b f => (b.deliver f).2) b

/-- Delivering a row of frames changes the inbox only. -/
theorem foldl_deliver (n : Node) (row : List Frame) :
    row.foldl deliver n = { n with inbox := handIn n.inbox row } := by
  induction row generalizing n with
  | nil => rfl
  | cons f rest ih => exact ih (n.deliver f)

/-- A row of frames that is delivered is handed in at the mailbox. -/
theorem foldl_deliver_frames (b : Inbox) (row : List Frame) :
    (handIn b row).frames = row.foldl Mailbox.push b.frames := by
  induction row generalizing b with
  | nil => rfl
  | cons f rest ih => rw [List.foldl_cons, ← b.deliver_frames f, ← ih, handIn, List.foldl_cons, handIn]

/-- Delivering frames has no influence on the intents. -/
theorem foldl_deliver_intents (b : Inbox) (row : List Frame) : (handIn b row).intents = b.intents := by
  induction row generalizing b with
  | nil => rfl
  | cons f rest ih => exact (ih (b.deliver f).2).trans (b.deliver_intents f)

/-- Frames that are delivered are announced, and stay so. -/
theorem foldl_deliver_announced {b : Inbox} {row : List Frame} (hends : 0 < b.frames.receivers)
    (h : row ≠ [] ∨ b.signals.isSet .messageArrived = true) :
    (handIn b row).signals.isSet .messageArrived = true := by
  induction row generalizing b with
  | nil => exact h.resolve_left fun hne => hne rfl
  | cons f rest ih =>
    refine ih (b := (b.deliver f).2) ?_ (.inr ?_)
    · rw [b.deliver_frames, Mailbox.receivers_push]
      exact hends
    · rw [Inbox.deliver_eq hends]
      simp [Inbox.raise, Signals.isSet_raise]

/-- Delivering frames has no influence on the signals but the one that announces them. -/
theorem foldl_deliver_isSet (g : Signal) (hg : g ≠ .messageArrived) (b : Inbox) (row : List Frame) :
    (handIn b row).signals.isSet g = b.signals.isSet g := by
  induction row generalizing b with
  | nil => rfl
  | cons f rest ih => exact (ih (b.deliver f).2).trans (b.isSet_deliver_of_ne f hg)

/-- A node with an empty inbox that waits for mail still waits for mail once a row of frames has been
delivered, and has the latest of them. -/
theorem Waits.deliver (h : n.Waits) (hempty : n.inbox.frames.items = []) (row : List Frame) :
    (row.foldl Node.deliver n).Waits ∧ (row.foldl Node.deliver n).inbox.frames.items <:+ row ∧
      (row.length ≤ n.rules.frameDepth.toNat → (row.foldl Node.deliver n).inbox.frames.items = row) := by
  rw [foldl_deliver]
  dsimp only
  have hlatest := Mailbox.items_foldl_push h.connected row
  rw [hempty, List.nil_append] at hlatest
  refine ⟨⟨?_, fun hitems => foldl_deliver_announced h.connected (.inl ?_), ?_, ?_⟩, ?_, fun hroom => ?_⟩
  · rw [foldl_deliver_intents]
    exact h.intents
  · rintro rfl
    exact hitems hempty
  · rw [foldl_deliver_frames, Mailbox.depth_foldl_push]
    exact h.depth
  · rw [foldl_deliver_frames, Mailbox.receivers_foldl_push]
    exact h.connected
  · rw [foldl_deliver_frames]
    exact hlatest
  · rw [foldl_deliver_frames, Mailbox.items_foldl_push_of_le h.connected, hempty, List.nil_append]
    have hdepth := h.depth
    rw [hempty, List.length_nil]
    omega

end Node

namespace Floor

variable {f : Floor} {now : Instant} {radio : Radio} {n : Node}

/-- What the nodes say in the next round. -/
def post (f : Floor) (now : Instant) : List Letter :=
  f.nodes.flatMap fun n => (n.letters now).map fun x => ⟨n.id, x.1, x.2⟩

/-- A node after the next round: it has taken its step, and the mail has arrived. -/
def settled (f : Floor) (radio : Radio) (now : Instant) (n : Node) : Node :=
  (Letter.arrivals radio (f.post now) n.id).foldl Node.deliver (n.step now fun _ => true).1

/-- A node receives the letters that are meant for it, in order. -/
theorem foldl_receive (radio : Radio) (n : Node) (post : List Letter) :
    (post.map Letter.transmission).foldl (receive radio) n =
      (Letter.arrivals radio post n.id).foldl Node.deliver n := by
  induction post generalizing n with
  | nil => rfl
  | cons l rest ih =>
    have hreceive : receive radio n l.transmission =
        match Letter.arrival radio n.id l with
        | some frame => n.deliver frame
        | none => n := by
      unfold receive Letter.arrival
      change (if l.meant n.id then _ else _) = _
      cases l.meant n.id with
      | false => rfl
      | true =>
        dsimp only [Letter.transmission]
        cases radio l.source n.id <;> rfl
    rw [List.map_cons, List.foldl_cons, ih, hreceive, Letter.arrivals, Letter.arrivals, List.filterMap_cons]
    cases Letter.arrival radio n.id l with
    | none => rfl
    | some frame => rfl

/-- The frames on the air in a round carry what the nodes say in it. -/
theorem round_transmissions (f : Floor) (d : Duration) (radio : Radio) :
    (f.round d radio).2.transmissions = (f.post (f.clock.advance d).now).map Letter.transmission := by
  change (f.nodes.map fun n => (⟨(n.step (f.clock.advance d).now fun _ => true).1,
    (n.step (f.clock.advance d).now fun _ => true).2⟩ : RoundStep)).flatMap RoundStep.transmissions = _
  rw [List.flatMap_map, post, List.map_flatMap]
  refine List.flatMap_congr fun n _ => ?_
  rw [Node.transmissions_step, List.map_map]
  rfl

/-- After a round every node has settled. -/
theorem round_nodes (f : Floor) (d : Duration) (radio : Radio) :
    (f.round d radio).1.nodes = f.nodes.map (f.settled radio (f.clock.advance d).now) := by
  have hair := f.round_transmissions d radio
  change (f.nodes.map fun n => (⟨(n.step (f.clock.advance d).now fun _ => true).1,
    (n.step (f.clock.advance d).now fun _ => true).2⟩ : RoundStep)).flatMap RoundStep.transmissions = _ at hair
  change (f.nodes.map fun n => (⟨(n.step (f.clock.advance d).now fun _ => true).1,
    (n.step (f.clock.advance d).now fun _ => true).2⟩ : RoundStep)).map _ = _
  rw [hair, List.map_map]
  refine List.map_congr_left fun n _ => ?_
  dsimp only [Function.comp]
  rw [foldl_receive, Node.step_id]
  rfl

/-- The machine of a node that has settled has run over the inputs of its step. -/
theorem settled_machine (f : Floor) (radio : Radio) (now : Instant) (n : Node) :
    (f.settled radio now n).machine = (n.machine.run (n.events now)).1 := by
  rw [settled, Node.foldl_deliver]
  exact n.step_machine now fun _ => true

/-- A host that has settled was one before, and has run over the inputs of its step. -/
theorem host_of_settled {h : Host} (hmachine : (f.settled radio now n).machine = .host h) :
    ∃ before, n.machine = .host before ∧ h = (before.run (n.events now)).1 := by
  rw [settled, Node.foldl_deliver] at hmachine
  have hstep : (n.step now fun _ => true).1.machine = .host h := hmachine
  exact Node.host_of_step hstep

/-- A node that has settled has the id that it had. -/
theorem settled_id (f : Floor) (radio : Radio) (now : Instant) (n : Node) :
    (f.settled radio now n).id = n.id := by
  rw [settled, Node.foldl_deliver]
  exact n.step_id now fun _ => true

/-- A node that has settled plays by the rules by which it did. -/
theorem settled_rules (f : Floor) (radio : Radio) (now : Instant) (n : Node) :
    (f.settled radio now n).rules = n.rules := by
  rw [settled, Node.foldl_deliver]
  exact n.step_rules now fun _ => true

/-- A node that has settled has started. -/
theorem settled_started (f : Floor) (radio : Radio) (now : Instant) (n : Node) :
    (f.settled radio now n).started = true := by
  rw [settled, Node.foldl_deliver]
  exact n.turn_started now

/-- The timers of a node that has settled are those at the end of its turn. -/
theorem settled_timers (f : Floor) (radio : Radio) (now : Instant) (n : Node) :
    (f.settled radio now n).timers = (n.turn now).node.timers := by
  rw [settled, Node.foldl_deliver]
  rfl

/-- What holds of every node once it has settled holds all over the floor after the round. -/
theorem forall_settled {f' : Floor} (hnodes : f'.nodes = f.nodes.map (f.settled radio now)) {P : Node → Prop}
    (hP : ∀ n ∈ f.nodes, P (f.settled radio now n)) : ∀ n ∈ f'.nodes, P n := by
  rw [hnodes]
  intro n' hn'
  obtain ⟨n, hn, rfl⟩ := List.mem_map.mp hn'
  exact hP n hn

/-- A node that waited for mail does so once it has settled; its inbox then holds the latest of what was
meant for it, and all of it if there is room. -/
theorem settled_waits (h : n.Waits) (f : Floor) (radio : Radio) (now : Instant) :
    (f.settled radio now n).Waits ∧
      (f.settled radio now n).inbox.frames.items <:+ Letter.arrivals radio (f.post now) n.id ∧
      ((Letter.arrivals radio (f.post now) n.id).length ≤ n.rules.frameDepth.toNat →
        (f.settled radio now n).inbox.frames.items = Letter.arrivals radio (f.post now) n.id) := by
  obtain ⟨hempty, hwaits⟩ := h.step now fun _ => true
  have hdelivered := hwaits.deliver hempty (Letter.arrivals radio (f.post now) n.id)
  rw [n.step_rules] at hdelivered
  exact hdelivered

end Floor

end BoothFloor
