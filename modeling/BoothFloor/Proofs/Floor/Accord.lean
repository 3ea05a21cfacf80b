import BoothFloor.Proofs.Accord
import BoothFloor.Proofs.Floor.Lossless
import BoothFloor.Proofs.Node.Patience

/-!
# A floor in accord

On a floor that loses nothing every visitor and every booth are in accord from one round to the next, as long
as a round is no longer than the patience of either side: an answer comes before it is overdue, and an offer is
claimed before it is withdrawn.
-/

namespace BoothFloor

/-- A dealing is a message from the node that is a dealing. -/
theorem Input.dealing?_eq (b : NodeId) (i : Input) : i.dealing? b = (i.from? b).filter Message.isDealing := by
  cases i with
  | message source msg rssi snr =>
    by_cases hsource : source = b
    · simp [dealing?, from?, hsource, Option.filter]
    · simp [dealing?, from?, hsource]
  | _ => rfl

/-- What a letter says to a node as a dealing is what it was written to say. -/
theorem Letter.told_dealing {l : Letter} (hdest : l.message.isDealing = true → l.dest.isBroadcast = false) (r : Rules)
    (b id : NodeId) : (l.told r b id).filter Message.isDealing =
      if l.source = b ∧ l.dest = id ∧ l.message.isDealing = true then some l.message else none := by
  cases hdealing : l.message.isDealing with
  | true =>
    have hmeant : l.meant id = true ↔ l.dest = id := (meant_iff (hdest hdealing)).trans eq_comm
    rw [told, Wire.decode_encode_of_isPlain _ (Message.isPlain_of_isDealing hdealing)]
    simp only [hmeant, and_true]
    by_cases hboth : l.source = b ∧ l.dest = id
    · rw [if_pos hboth, if_pos hboth]
      exact if_pos hdealing
    · rw [if_neg hboth, if_neg hboth]
      rfl
  | false =>
    rw [if_neg fun hall => nomatch hall.2.2]
    refine Option.filter_eq_none_iff.mpr fun msg htold hkind => ?_
    unfold told at htold
    split at htold
    · cases hdecode : Wire.decode (Wire.encode l.message) (r.hosts.roleOf b) with
      | error e =>
        rw [hdecode] at htold
        cases htold
      | ok msg' =>
        rw [hdecode] at htold
        obtain rfl := Option.some.inj htold
        rw [Wire.eq_of_decode_encode hdecode (Message.isPlain_of_isDealing hkind), hkind] at hdealing
        cases hdealing
    · cases htold

namespace Node

/-- The inputs of a turn before an overdue answer are its news. -/
theorem news_isNews (n : Node) (now : Instant) : ∀ i ∈ n.opening ++ n.news now, Visitor.IsNews i := by
  intro i hi
  rcases List.mem_append.mp hi with hi | hi
  · exact .inl (mem_opening hi)
  · rcases List.mem_append.mp hi with hi | hi
    · exact .inr (.inl (n.heard_messages i hi))
    · split at hi
      · exact .inr (.inr (List.mem_singleton.mp hi))
      · cases hi

/-- All dealings of a turn are heard. -/
theorem news_dealings (n : Node) (now : Instant) (b : NodeId) :
    (n.opening ++ n.news now).filterMap (Input.dealing? b) = n.heard.filterMap (Input.dealing? b) := by
  have hopening : n.opening.filterMap (Input.dealing? b) = [] := by
    unfold opening
    split <;> rfl
  have hselection : (if n.selects now then [Input.timer .selection] else []).filterMap (Input.dealing? b) = [] := by
    split <;> rfl
  rw [news, List.filterMap_append, List.filterMap_append, hopening, hselection, List.nil_append, List.append_nil]

/-- All dealings before the tick are heard. -/
theorem before_dealings (n : Node) (now : Instant) (b : NodeId) :
    (n.before now).filterMap (Input.dealing? b) = n.heard.filterMap (Input.dealing? b) := by
  have hretry : (if n.retries now then [Input.timer .retry] else []).filterMap (Input.dealing? b) = [] := by
    split <;> rfl
  rw [before, ← List.append_assoc, List.filterMap_append, news_dealings, hretry, List.append_nil]

end Node

namespace Floor

/-- A floor between two rounds on which every visitor and every booth are in accord. -/
structure Accorded (r : Rules) (guests : List NodeId) (radio : Radio) (f : Floor) (post : List Letter) : Prop
    extends f.Lossless r guests radio post where
  receives : ∀ p ∈ f.nodes, ∀ h, p.machine = .host h → h.Receives r guests
  accord : ∀ n ∈ f.nodes, ∀ v, n.machine = .visitor v → ∀ p ∈ f.nodes, ∀ h, p.machine = .host h →
    ∃ st, h.booth.Stands n.id st ∧ Accord f.clock.now (v.stance p.id) (dealings p.id (Letter.sentBy post n.id)) st
      (dealings n.id (Letter.sentBy post p.id))
  /-- Whoever has asked in the last round started the timer for the answer then. -/
  patient : ∀ n ∈ f.nodes, ∀ v b, n.machine = .visitor v → v.registering? = some b →
    (b, .registerRequest) ∈ Letter.sentBy post n.id →
      n.timers.retry = Alarm.start f.clock.now r.registerTimeout
  untaken : ∀ n ∈ f.nodes, n.inbox.signals.isSet .retryTimeout = false
  /-- Nobody deals with everyone. -/
  addressed : ∀ l ∈ post, l.message.isDealing = true → l.dest.isBroadcast = false

variable {r : Rules} {guests : List NodeId} {radio : Radio} {f f' : Floor} {post : List Letter} {n p : Node}
  {now : Instant} {b : NodeId} {v : Visitor} {host : Host}

/-- On a floor of fresh nodes all are in accord. -/
theorem accorded_fresh (r : Rules) (guests : List NodeId) (radio : Radio) {f : Floor}
    (hnodes : f.nodes = (r.hosts.ids ++ guests).map (Node.fresh r)) : f.Accorded r guests radio [] := by
  have hfresh : ∀ n ∈ f.nodes, ∃ id, n = Node.fresh r id := by
    rw [hnodes]
    intro n hn
    obtain ⟨id, -, rfl⟩ := List.mem_map.mp hn
    exact ⟨id, rfl⟩
  refine { lossless_fresh r guests radio hnodes with
    receives := fun p hp h hmachine => ?_
    accord := fun n hn v hvisitor p hp h hhost => ?_
    patient := fun _ _ _ _ _ _ hasked => absurd hasked List.not_mem_nil
    untaken := fun n hn => ?_
    addressed := fun l hl => absurd hl List.not_mem_nil }
  · obtain ⟨id, rfl⟩ := hfresh p hp
    obtain rfl := Node.host_of_fresh hmachine
    exact Host.receives_ofRules id r guests
  · obtain ⟨id, rfl⟩ := hfresh n hn
    obtain ⟨booth, rfl⟩ := hfresh p hp
    obtain rfl := Node.host_of_fresh hhost
    obtain rfl := Node.visitor_of_fresh hvisitor
    exact ⟨.outside, ⟨List.not_mem_nil, List.not_mem_nil⟩, .strangers⟩
  · obtain ⟨id, rfl⟩ := hfresh n hn
    rfl

namespace Accorded

/-- A node hears all dealings with it, and no others. -/
theorem heard_dealings (h : f.Accorded r guests radio post) (hradio : ∀ a b, (radio a b).isSome = true)
    (hn : n ∈ f.nodes) (b : NodeId) :
    n.heard.filterMap (Input.dealing? b) = dealings n.id (Letter.sentBy post b) := by
  have hrole := h.roles n hn
  have htold := Node.told_of_arrivals hrole.waits (h.full n hn) hradio b
  simp only [Input.dealing?_eq]
  rw [← List.filter_filterMap, htold, List.filter_filterMap, dealings, Letter.sentBy, List.filterMap_map,
    List.filterMap_filter]
  refine List.filterMap_congr fun l hl => ?_
  rw [Letter.told_dealing (h.addressed l hl)]
  by_cases hsource : l.source = b <;> simp [hsource]

/-- What the host of a node hears in a round before the tick comes from guests, if not from hosts. -/
theorem before_fromGuests (h : f.Accorded r guests radio post) (hp : p ∈ f.nodes) (now : Instant) :
    ∀ i ∈ p.before now, i ≠ .tick ∧ i.FromGuests r guests := by
  intro i hi
  refine ⟨?_, ?_⟩
  · rintro rfl
    rcases p.before_external now _ hi with heq | hexternal
    · cases heq
    · cases hexternal
  · rintro s msg rssi snr rfl hguest
    have hevent : (p.moment now, .message s msg rssi snr) ∈ p.events now := by
      rw [(h.roles p hp).waits.events]
      exact List.mem_map_of_mem (List.mem_append_left _ hi)
    obtain ⟨l, hl, rfl, -, -⟩ := Node.letter_of_event (h.mail p hp).subset hevent
    rcases List.mem_append.mp (h.sources l hl) with hhost | hmem
    · rw [Rules.isHost, IdRange.mem_ids_iff.mp hhost] at hguest
      cases hguest
    · exact hmem

/-- What becomes in a round of a visitor's standing with a booth. -/
theorem host_turn (h : f.Accorded r guests radio post) (crowd : Crowd r guests)
    (hradio : ∀ a b, (radio a b).isSome = true) (hroom : guests.length ≤ r.maxUsers.toNat)
    (hready : now.since f.clock.now ≤ r.queueReadyTimeout) (hn : n ∈ f.nodes) (hvisitor : n.machine = .visitor v)
    (hp : p ∈ f.nodes) (hhost : p.machine = .host host) {s : Stance} {st : Standing} {told : List Message}
    (hstands : host.booth.Stands n.id st)
    (haccord : Accord f.clock.now s (dealings p.id (Letter.sentBy post n.id)) st told) :
    ∃ st', (host.run (p.events now)).1.booth.Stands n.id st' ∧
      st.Turn now (dealings p.id (Letter.sentBy post n.id)) st' (dealings n.id (p.letters now)) := by
  have hreceives := h.receives p hp host hhost
  have hguest : r.isHost n.id = false := by
    rw [Node.id, hvisitor]
    exact ((h.roles n hn).visitor hvisitor).role
  have hduration : 0 < r.sessionDuration.ms.toNat := crowd.valid.bounds.sessionDuration_pos
  have hinputs := h.before_fromGuests hp now
  have hletters : p.letters now = Action.sent (host.run (p.events now)).2 := by
    rw [Node.letters, hhost, Machine.run_host]
  have hsaid : (p.before now).filterMap (Input.dealing? n.id) = dealings p.id (Letter.sentBy post n.id) :=
    (p.before_dealings now n.id).trans (h.heard_dealings hradio hp n.id)
  rw [hletters, (h.roles p hp).waits.events]
  rcases haccord.said_cases with ⟨hnothing, hoffer⟩ | ⟨hasks, hout⟩ | ⟨hexit, hst⟩
  · rw [hnothing] at hsaid ⊢
    exact hreceives.turn_rests hstands hinputs hsaid fun since heq => hoffer since heq ▸ hready
  · rw [hasks] at hsaid ⊢
    exact hreceives.turn_asks hroom hduration (h.mem_guests hn hguest) hguest hstands hout hinputs hsaid
  · rw [hexit] at hsaid ⊢
    exact hreceives.turn_parts hguest hduration hstands hst hinputs hsaid

/-- A visitor waits for no answer of which it is told in a round that it is overdue. -/
theorem not_overdue (h : f.Accorded r guests radio post)
    (hradio : ∀ a b, (radio a b).isSome = true) (hregister : ¬ f.clock.now.after r.registerTimeout ≤ now)
    (hn : n ∈ f.nodes) (hvisitor : n.machine = .visitor v) (hretries : n.retries now = true) :
    (v.run ((n.opening ++ n.news now).map (n.moment now, ·))).1.registering? = none := by
  by_contra hsome
  obtain ⟨b, hb⟩ := Option.ne_none_iff_exists'.mp hsome
  have hrole := ((h.roles n hn).visitor hvisitor).run ((n.opening ++ n.news now).map (n.moment now, ·))
  obtain ⟨p, hp, rfl, host, hhost⟩ := h.exists_host (hrole.isHost (Visitor.booth?_of_registering? hb))
  obtain ⟨st, -, haccord⟩ := h.accord n hn v hvisitor p hp host hhost
  have hcourse := v.run_course (n.news_isNews now) (n.moment now) p.id
  rw [n.news_dealings, h.heard_dealings hradio hn] at hcourse
  refine Bool.false_ne_true (Eq.trans (Eq.symm ?_) hretries)
  rcases haccord.asks_of_awaits hcourse (Visitor.registering?_eq_some_iff.mp hb) with hasked | ⟨hawaits, hasked⟩
  · exact Node.retries_eq_false_of_asked hvisitor (mem_dealings.mp hasked).1
  · -- the visitor asked in the last round, and the time for the answer has not passed
    have hpost := (mem_dealings.mp hasked).1
    have hstarted := h.begun.resolve_right fun hfresh => by
      rw [hfresh.1] at hpost
      cases hpost
    have halarm := h.patient n hn v p.id hvisitor (Visitor.registering?_eq_some_iff.mpr hawaits) hpost
    refine Node.retries_eq_false (hstarted n hn) (h.untaken n hn) ?_
    rw [halarm]
    exact decide_eq_false hregister

/-- What becomes in a round of a visitor's stance to a booth. -/
theorem visitor_turn (h : f.Accorded r guests radio post)
    (hradio : ∀ a b, (radio a b).isSome = true) (hregister : ¬ f.clock.now.after r.registerTimeout ≤ now)
    (hn : n ∈ f.nodes) (hvisitor : n.machine = .visitor v) (b : NodeId) :
    (v.stance b).Turn (dealings n.id (Letter.sentBy post b)) ((v.run (n.events now)).1.stance b)
      (dealings b (n.letters now)) := by
  have hletters : n.letters now = Action.sent (v.run (n.events now)).2 := by
    rw [Node.letters, hvisitor, Machine.run_visitor]
  have hturn := Visitor.run_turn (n.news_isNews now) (h.not_overdue hradio hregister hn hvisitor) b
  rw [n.news_dealings, h.heard_dealings hradio hn] at hturn
  rw [hletters, (h.roles n hn).waits.events, Node.before, ← List.append_assoc]
  exact hturn

/-- Nobody deals with everyone in the next round. -/
theorem addressed_round (h : f.Accorded r guests radio post) (crowd : Crowd r guests)
    (hradio : ∀ a b, (radio a b).isSome = true) (now : Instant) :
    ∀ l ∈ f.post now, l.message.isDealing = true → l.dest.isBroadcast = false := by
  intro l hl hdealing
  obtain ⟨n, hn, -, hletter⟩ := sender_of_mem_post hl
  cases hmachine : n.machine with
  | host host =>
    have hserves := ((h.roles n hn).host hmachine).serves
    rw [Node.letters, hmachine, Machine.run_host] at hletter
    exact Host.run_deals hserves (h.signed crowd hn now) hletter hdealing
  | visitor v =>
    have hhost := (h.said_letters crowd hradio hn hmachine now).errand.isHost hletter
    exact NodeId.isBroadcast_of_free (crowd.free _ (List.mem_append_left _ (IdRange.mem_ids_iff.mpr hhost)))

/-- Only guests come to a host in the next round. -/
theorem receives_round (h : f.Accorded r guests radio post) (hp : p ∈ f.nodes) (hhost : p.machine = .host host)
    (now : Instant) : (host.run (p.events now)).1.Receives r guests := by
  refine (h.receives p hp host hhost).run fun m i hmem => ?_
  rw [(h.roles p hp).waits.events] at hmem
  obtain ⟨j, hj, heq⟩ := List.mem_map.mp hmem
  obtain ⟨-, rfl⟩ := Prod.mk.inj heq
  rcases List.mem_append.mp hj with hj | hj
  · exact (h.before_fromGuests hp now j hj).2
  · obtain rfl := List.mem_singleton.mp hj
    exact nofun

/-- A round that is no longer than the patience of all leaves a floor in accord. -/
theorem round (h : f.Accorded r guests radio post) (crowd : Crowd r guests)
    (hradio : ∀ a b, (radio a b).isSome = true) (hroom : guests.length ≤ r.maxUsers.toNat)
    (hregister : ¬ f.clock.now.after r.registerTimeout ≤ now) (hready : now.since f.clock.now ≤ r.queueReadyTimeout)
    (hnodes : f'.nodes = f.nodes.map (f.settled radio now)) (hclock : f'.clock.now = now) :
    f'.Accorded r guests radio (f.post now) := by
  have hdistinct := h.distinct crowd
  refine { h.toLossless.round crowd hradio hnodes with
    receives := forall_settled hnodes fun p hp host hmachine => ?_
    accord := forall_settled hnodes fun n hn v hvisitor => forall_settled hnodes fun p hp host hhost => ?_
    patient := forall_settled hnodes fun n hn v b hvisitor hregistering hasked => ?_
    untaken := forall_settled hnodes fun n hn => ?_
    addressed := h.addressed_round crowd hradio now }
  · obtain ⟨before, hbefore, rfl⟩ := host_of_settled hmachine
    exact h.receives_round hp hbefore now
  · obtain ⟨before, hbefore, rfl⟩ := visitor_of_settled hvisitor
    obtain ⟨earlier, hearlier, rfl⟩ := host_of_settled hhost
    obtain ⟨st, hstands, haccord⟩ := h.accord n hn before hbefore p hp earlier hearlier
    obtain ⟨st', hstands', hturn⟩ := h.host_turn crowd hradio hroom hready hn hbefore hp hearlier hstands haccord
    rw [settled_id, settled_id, sentBy_post hdistinct hn, sentBy_post hdistinct hp, hclock]
    exact ⟨st', hstands', haccord.turn (h.visitor_turn hradio hregister hn hbefore p.id) hturn⟩
  · rw [settled_id, sentBy_post hdistinct hn] at hasked
    have hsent : (n.turn now).sent = n.letters now := (n.turn_run now).2.1
    have hnow : (n.turn now).node.now = now := congrArg Moment.now (n.turn_moment now)
    have hrules : v.rules = r := by
      obtain ⟨before, hbefore, rfl⟩ := visitor_of_settled hvisitor
      exact (((h.roles n hn).visitor hbefore).run _).rules
    have hmachine : (n.turn now).node.machine = .visitor v :=
      ((n.turn_run now).1.trans (f.settled_machine radio now n).symm).trans hvisitor
    have hpatient := n.turn_patient now v b hmachine hregistering (by rw [hsent]; exact hasked)
    rw [settled_timers, hclock, hpatient, hnow, hrules]
  · rw [settled, Node.foldl_deliver]
    exact (Node.foldl_deliver_isSet .retryTimeout (by decide) _ _).trans (n.turn_untaken now .retry)

end Accorded

end Floor

end BoothFloor
