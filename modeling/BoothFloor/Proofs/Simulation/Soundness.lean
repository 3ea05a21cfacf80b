import BoothFloor.Proofs.Checked.Arithmetic
import BoothFloor.Proofs.Node.Life
import BoothFloor.Proofs.Simulation.Setup

/-!
# What an accepted setup promises

A setup numbers the visitors and sizes the inboxes before any node looks at the rules. The numbers fit a byte all the
same, since a setup with too many visitors has been refused by then. The rules are looked at by each node that is set
up: a floor with any node on it plays by rules without a fault, its nodes have distinct ids that are free, and each
visitor and each booth hear each other with a strength of their own. What nobody looks at are the rules of a floor
without a node.
-/

namespace BoothFloor

namespace Setup

variable {s : Setup}

/-- The ids of the visitors, each a sum that has to fit a byte. -/
def visitorIdsChecked (s : Setup) : Except Fault (List NodeId) :=
  (List.range' 1 s.users.toNat).mapM fun n => do
    return NodeId.ofNat (← Checked.add 8 s.rules.hosts.last.toNat n)

/-- If there is room for the visitors, their ids fit a byte. -/
theorem visitorIdsChecked_eq (hroom : s.rules.hosts.last.toNat + s.users.toNat < 255) :
    s.visitorIdsChecked = .ok s.visitorIds := by
  have hids : s.visitorIds =
      (List.range' 1 s.users.toNat).map fun n => NodeId.ofNat (s.rules.hosts.last.toNat + n) := by
    rw [visitorIds, ← List.map_add_range', List.map_map]
    rfl
  rw [hids]
  refine Checked.mapM_eq_ok fun n hn => ?_
  have hlt := (List.mem_range'_1.mp hn).2
  rw [Checked.add_of_lt (by omega)]
  rfl

/-- Whether a strength lies in the range from which strengths are drawn. -/
def InRange (rssi : Int16) : Prop := -95 ≤ rssi.toInt ∧ rssi.toInt ≤ -35

/-- The strengths that are noted are the same for both directions and lie in the range. -/
structure Fair (noted : Strengths) : Prop where
  symmetric : ∀ a b, noted.lookup (a, b) = noted.lookup (b, a)
  inRange : ∀ a b rssi, noted.lookup (a, b) = some rssi → InRange rssi

/-- A number that is drawn, counted from the weakest strength, is a strength in the range. -/
theorem inRange_draw (lottery : Lottery strengthCount) (state : lottery.State) :
    InRange (Int16.ofInt (weakest + (lottery.draw state).1)) := by
  have hbelow : (lottery.draw state).1 < 61 := lottery.draw_lt state
  unfold InRange weakest
  rw [Int16.toInt_ofInt_of_le (by omega) (by omega)]
  omega

/-- A draw notes one strength for the two directions between the nodes of a pair, and nothing else. -/
theorem lookup_drawPair (lottery : Lottery strengthCount) (noted : Strengths × lottery.State)
    (pair : NodeId × NodeId) (a b : NodeId) :
    (drawPair lottery noted pair).1.lookup (a, b) =
      if (a, b) = pair ∨ (b, a) = pair then some (Int16.ofInt (weakest + (lottery.draw noted.2).1))
      else noted.1.lookup (a, b) := by
  have hswap : (a, b) = pair.swap ↔ (b, a) = pair := ⟨fun h => congrArg Prod.swap h, fun h => congrArg Prod.swap h⟩
  change List.lookup (a, b) ((pair.swap, _) :: (pair, _) :: noted.1) = _
  rw [List.lookup_cons, List.lookup_cons]
  by_cases hback : (b, a) = pair
  · rw [if_pos (.inr hback), beq_iff_eq.mpr (hswap.mpr hback)]
  · rw [beq_eq_false_iff_ne.mpr fun h => hback (hswap.mp h)]
    by_cases hforth : (a, b) = pair
    · rw [if_pos (.inl hforth), beq_iff_eq.mpr hforth]
    · rw [if_neg (not_or.mpr ⟨hforth, hback⟩), beq_eq_false_iff_ne.mpr hforth]

/-- A draw keeps the strengths fair. -/
theorem Fair.drawPair {lottery : Lottery strengthCount} {noted : Strengths × lottery.State} (h : Fair noted.1)
    (pair : NodeId × NodeId) : Fair (drawPair lottery noted pair).1 := by
  constructor
  · intro a b
    rw [lookup_drawPair, lookup_drawPair, h.symmetric a b]
    exact if_congr or_comm rfl rfl
  · intro a b rssi hnoted
    rw [lookup_drawPair] at hnoted
    split at hnoted
    · exact Option.some.inj hnoted ▸ inRange_draw lottery noted.2
    · exact h.inRange a b rssi hnoted

/-- After some draws the strengths are fair, and there is one for each pair that was drawn for, in both directions. -/
theorem foldl_drawPair (lottery : Lottery strengthCount) {noted : Strengths × lottery.State} (h : Fair noted.1)
    (pairs : List (NodeId × NodeId)) :
    Fair (pairs.foldl (drawPair lottery) noted).1 ∧
      ∀ a b, ((pairs.foldl (drawPair lottery) noted).1.lookup (a, b)).isSome = true ↔
        (noted.1.lookup (a, b)).isSome = true ∨ (a, b) ∈ pairs ∨ (b, a) ∈ pairs := by
  induction pairs generalizing noted with
  | nil => exact ⟨h, fun a b => by simp⟩
  | cons pair rest ih =>
    obtain ⟨hfair, hdrawn⟩ := ih (h.drawPair pair)
    refine ⟨hfair, fun a b => ?_⟩
    rw [List.foldl_cons, hdrawn, lookup_drawPair, List.mem_cons, List.mem_cons]
    split
    · next hpair => exact ⟨fun _ => .inr (by tauto), fun _ => .inl rfl⟩
    · next hother => tauto

/-- Between each visitor and each booth a strength has been drawn, and there are no others. -/
theorem drawAll_spec (lottery : Lottery strengthCount) (booths visitors : List NodeId) (seed : UInt64) :
    Fair (drawAll lottery booths visitors seed) ∧
      ∀ a b, ((drawAll lottery booths visitors seed).lookup (a, b)).isSome = true ↔
        a ∈ visitors ∧ b ∈ booths ∨ b ∈ visitors ∧ a ∈ booths := by
  have hnone : Fair (([], lottery.ofSeed seed) : Strengths × lottery.State).1 := ⟨fun _ _ => rfl, nofun⟩
  have hpairs (a b : NodeId) :
      (a, b) ∈ (visitors.flatMap fun visitor => booths.map (visitor, ·)) ↔ a ∈ visitors ∧ b ∈ booths := by
    simp only [List.mem_flatMap, List.mem_map, Prod.mk.injEq]
    exact ⟨fun ⟨_, hv, _, hb, hva, hbb⟩ => ⟨hva ▸ hv, hbb ▸ hb⟩, fun ⟨hv, hb⟩ => ⟨a, hv, b, hb, rfl, rfl⟩⟩
  obtain ⟨hfair, hdrawn⟩ := foldl_drawPair lottery hnone
    (visitors.flatMap fun visitor => booths.map (visitor, ·))
  refine ⟨hfair, fun a b => ?_⟩
  rw [drawAll, hdrawn, hpairs, hpairs]
  simp

end Setup

namespace Simulation

variable {lottery : Lottery Setup.strengthCount} {s : Setup} {sim : Simulation}

/-- Set up a floor, with the ids of the visitors computed in a byte, for the nodes and for the strengths. -/
def ofSetupChecked (lottery : Lottery Setup.strengthCount) (s : Setup) :
    Except Fault (Except SimulationError Simulation) :=
  if 255 ≤ s.rules.hosts.last.toNat + s.users.toNat then
    return .error (.tooManyUsers s.users s.rules.hosts.last)
  else if s.tick.nanos = 0 then return .error .zeroTick
  else do
    let guests ← s.visitorIdsChecked
    match (s.rules.hosts.ids ++ guests).mapM (Node.ofRules · s.raisedRules) with
    | .error e => return .error (.node e)
    | .ok nodes =>
      return .ok
        { setup := { s with rules := s.raisedRules }
          floor := ⟨nodes, ⟨.zero⟩⟩
          strengths := Setup.drawAll lottery s.rules.hosts.ids (← s.visitorIdsChecked) s.seed
          tallies := (nodes.filter (·.machine.role = .admin)).map fun n => (n.id, {}) }

/-- No id overflows, whatever the setup. -/
theorem ofSetupChecked_eq (lottery : Lottery Setup.strengthCount) (s : Setup) :
    ofSetupChecked lottery s = .ok (ofSetupWith lottery s) := by
  unfold ofSetupChecked ofSetupWith
  split
  · rfl
  · next hroom =>
    split
    · rfl
    · rw [Setup.visitorIdsChecked_eq (Nat.lt_of_not_le hroom), Checked.ok_bind]
      change (match s.nodeIds.mapM (Node.ofRules · s.raisedRules) with | .error e => _ | .ok nodes => _) = _
      cases s.nodeIds.mapM (Node.ofRules · s.raisedRules) <;> rfl

/-- The ids of the nodes of one role. -/
def idsOf (role : Role) (sim : Simulation) : List NodeId :=
  (sim.floor.nodes.filter (·.machine.role = role)).map Node.id

/-- The nodes of a role are those with the ids that call for it. -/
theorem idsOf_of_ofSetup (accepted : ofSetupWith lottery s = .ok sim) (role : Role) :
    sim.idsOf role = s.nodeIds.filter (s.rules.hosts.roleOf · = role) := by
  have hhosts : s.raisedRules.hosts = s.rules.hosts := by rw [Setup.raisedRules_eq]
  have hrole : ((fun n : Node => decide (n.machine.role = role)) ∘ Node.fresh s.raisedRules) =
      fun id => decide (s.rules.hosts.roleOf id = role) := by
    funext id
    rw [Function.comp_apply, Node.role_fresh, hhosts]
  have hid : Node.id ∘ Node.fresh s.raisedRules = id := funext (Node.id_fresh s.raisedRules)
  rw [idsOf, (nodes_of_ofSetup accepted).1, List.filter_map, hrole, List.map_map, hid, List.map_id]

/-- The hosts of a floor are those of the range, and all others are visitors. -/
theorem roles_of_ofSetup (accepted : ofSetupWith lottery s = .ok sim) :
    sim.idsOf .admin = s.rules.hosts.ids ∧ sim.idsOf .user = s.visitorIds := by
  obtain ⟨-, hroom, -⟩ := nodes_of_ofSetup accepted
  have hhost {id : NodeId} (hid : id ∈ s.rules.hosts.ids) : s.rules.hosts.roleOf id = .admin :=
    if_pos (IdRange.mem_ids_iff.mp hid)
  have hguest {id : NodeId} (hid : id ∈ s.visitorIds) : s.rules.hosts.roleOf id = .user :=
    if_neg (Bool.eq_false_iff.mp (Setup.contains_of_visitor hroom hid))
  rw [idsOf_of_ofSetup accepted, idsOf_of_ofSetup accepted, Setup.nodeIds, List.filter_append, List.filter_append]
  constructor
  · rw [List.filter_eq_self.mpr fun id hid => decide_eq_true (hhost hid),
      List.filter_eq_nil_iff.mpr fun id hid => by simp [hguest hid], List.append_nil]
  · rw [List.filter_eq_nil_iff.mpr fun id hid => by simp [hhost hid],
      List.filter_eq_self.mpr fun id hid => decide_eq_true (hguest hid), List.nil_append]

/-- A floor with any node on it plays by rules without a fault. -/
theorem valid_of_ofSetup (accepted : ofSetupWith lottery s = .ok sim)
    (hnodes : s.users ≠ 0 ∨ s.rules.hosts.first ≤ s.rules.hosts.last) : s.raisedRules.Valid := by
  obtain ⟨-, hroom, hfree⟩ := nodes_of_ofSetup accepted
  obtain ⟨id, hid⟩ : ∃ id, id ∈ s.nodeIds := by
    rcases hnodes with husers | hordered
    · have hpos : 0 < s.users.toNat := Nat.pos_of_ne_zero fun hzero => husers (UInt8.toNat_inj.mp hzero)
      refine ⟨.ofNat (s.rules.hosts.last.toNat + 1), List.mem_append_right _ (List.mem_map_of_mem ?_)⟩
      exact List.mem_range'_1.mpr ⟨Nat.le_refl _, Nat.lt_add_of_pos_right hpos⟩
    · refine ⟨⟨s.rules.hosts.first⟩, List.mem_append_left _ (IdRange.mem_ids_iff.mpr ?_)⟩
      rw [IdRange.contains, Bool.and_eq_true, decide_eq_true_eq, decide_eq_true_eq]
      exact ⟨UInt8.le_refl _, hordered⟩
  exact (hfree id hid).1

/-- No setup lets an id overflow. A floor that is set up keeps the rules that it was given, but for an inbox that may
be deeper. It numbers its nodes apart and between the two reserved ids; hosts are exactly those of the range, and
visitors as many others as were asked for. A visitor and a booth hear each other with one strength, the same in both
directions and within the range, whatever numbers are drawn; between other nodes no strength is drawn. And the rules
have no fault, unless there is no node at all to play by them. -/
theorem ofSetup_sound (lottery : Lottery Setup.strengthCount) (s : Setup) :
    ofSetupChecked lottery s = .ok (ofSetupWith lottery s) ∧ ∀ sim, ofSetupWith lottery s = .ok sim →
      (sim.setup.rules = { s.rules with frameDepth := sim.setup.rules.frameDepth } ∧
        sim.setup.rules.frameDepth.toNat = max s.rules.frameDepth.toNat s.frameDepth ∧
        (s.users ≠ 0 ∨ s.rules.hosts.first ≤ s.rules.hosts.last → sim.setup.rules.Valid)) ∧
      ((sim.floor.nodes.map Node.id).Nodup ∧ ∀ n ∈ sim.floor.nodes, 1 ≤ n.id.toNat ∧ n.id.toNat ≤ 254) ∧
      (sim.idsOf .admin = s.rules.hosts.ids ∧ s.rules.hosts.ids.length = s.rules.hosts.count ∧
        sim.idsOf .user = s.visitorIds ∧ s.visitorIds.length = s.users.toNat) ∧
      (∀ a b, sim.strengths.lookup (a, b) = sim.strengths.lookup (b, a) ∧
        ((sim.strengths.lookup (a, b)).isSome = true ↔
          a ∈ sim.idsOf .user ∧ b ∈ sim.idsOf .admin ∨ b ∈ sim.idsOf .user ∧ a ∈ sim.idsOf .admin)) ∧
      ∀ u ∈ sim.idsOf .user, ∀ b ∈ sim.idsOf .admin, ∃ rssi, Setup.InRange rssi ∧
        sim.strengths.lookup (u, b) = some rssi ∧ sim.strengths.lookup (b, u) = some rssi ∧
        sim.radio u b = some ⟨rssi, 8⟩ ∧ sim.radio b u = some ⟨rssi, 8⟩ := by
  refine ⟨ofSetupChecked_eq lottery s, fun sim accepted => ?_⟩
  obtain ⟨hadmins, husers⟩ := roles_of_ofSetup accepted
  obtain ⟨hnodes, hroom, hfree⟩ := nodes_of_ofSetup accepted
  have hsim := (eq_of_ofSetup accepted).1
  have hrules : sim.setup.rules = s.raisedRules := by rw [hsim]
  have hids : sim.floor.nodes.map Node.id = s.nodeIds := by rw [hnodes, Node.map_id_fresh]
  obtain ⟨hfair, hdrawn⟩ : Setup.Fair sim.strengths ∧ ∀ a b, (sim.strengths.lookup (a, b)).isSome = true ↔
      a ∈ s.visitorIds ∧ b ∈ s.rules.hosts.ids ∨ b ∈ s.visitorIds ∧ a ∈ s.rules.hosts.ids := by
    rw [hsim]
    exact Setup.drawAll_spec lottery s.rules.hosts.ids s.visitorIds s.seed
  rw [hadmins, husers]
  refine ⟨⟨?_, ?_, fun hsome => ?_⟩, ⟨?_, fun n hn => ?_⟩, ⟨rfl, IdRange.length_ids, rfl, ?_⟩,
    fun a b => ⟨hfair.symmetric a b, hdrawn a b⟩, fun u hu b hb => ?_⟩
  · rw [hrules]
    exact s.raisedRules_eq
  · rw [hrules]
    exact s.toNat_frameDepth
  · rw [hrules]
    exact valid_of_ofSetup accepted hsome
  · rw [hids]
    exact Setup.nodup_nodeIds hroom
  · have hreserved := (hfree n.id (hids ▸ List.mem_map_of_mem hn)).2
    exact NodeId.bounds_of_free hreserved
  · rw [Setup.visitorIds, List.length_map, List.length_range']
  · obtain ⟨rssi, hforth⟩ := Option.isSome_iff_exists.mp ((hdrawn u b).mpr (.inl ⟨hu, hb⟩))
    have hback : sim.strengths.lookup (b, u) = some rssi := (hfair.symmetric b u).trans hforth
    refine ⟨rssi, hfair.inRange u b rssi hforth, hforth, hback, ?_, ?_⟩
    · rw [radio, hforth]
    · rw [radio, hback]

/-- Three booths and two visitors. -/
def twoVisitors : Setup where
  rules := .brisk
  users := 2
  duration := .ofMillis 1000
  tick := .ofMillis 10
  seed := 1

/-- The visitors come after the booths, and the first of them hears the last booth as strongly as it is heard. -/
theorem ofSetup_sound_twoVisitors :
    ∃ sim, ofSetup twoVisitors = .ok sim ∧ sim.setup.rules.Valid ∧ sim.idsOf .admin = [⟨1⟩, ⟨2⟩, ⟨3⟩] ∧
      sim.idsOf .user = [⟨4⟩, ⟨5⟩] ∧ ∃ rssi, Setup.InRange rssi ∧ sim.radio ⟨4⟩ ⟨3⟩ = some ⟨rssi, 8⟩ ∧
      sim.radio ⟨3⟩ ⟨4⟩ = some ⟨rssi, 8⟩ := by
  have haccepted : (match ofSetup twoVisitors with | .ok _ => true | .error _ => false) = true := by decide +kernel
  cases accepted : ofSetup twoVisitors with
  | error e =>
    rw [accepted] at haccepted
    cases haccepted
  | ok sim =>
    obtain ⟨⟨-, -, hvalid⟩, -, ⟨hadmins, -, husers, -⟩, -, hheard⟩ :=
      (ofSetup_sound Setup.stream twoVisitors).2 sim accepted
    have hbooths : twoVisitors.rules.hosts.ids = [⟨1⟩, ⟨2⟩, ⟨3⟩] := by decide
    have hvisitors : twoVisitors.visitorIds = [⟨4⟩, ⟨5⟩] := by decide
    rw [hbooths] at hadmins
    rw [hvisitors] at husers
    obtain ⟨rssi, hrange, -, -, hforth, hback⟩ :=
      hheard ⟨4⟩ (by rw [husers]; decide) ⟨3⟩ (by rw [hadmins]; decide)
    exact ⟨sim, rfl, hvalid (.inl (by decide)), hadmins, husers, rssi, hrange, hforth, hback⟩

/-- A hall without visitors in which the last booth comes before the first. -/
def backwards : Setup := { twoVisitors with rules := { Rules.brisk with hosts := ⟨5, 3⟩ }, users := 0 }

/-- Nobody looks at the rules of `backwards`, which cannot be played by; with one visitor the setup is refused. -/
theorem ofSetup_unsound_backwards :
    (∃ sim, ofSetup backwards = .ok sim ∧ sim.floor.nodes = [] ∧ ¬ sim.setup.rules.Valid) ∧
      ofSetup { backwards with users := 1 } = .error (.node (.rules (.idRange 5 3))) :=
  ⟨⟨_, rfl, rfl, by decide⟩, rfl⟩

end Simulation

end BoothFloor
