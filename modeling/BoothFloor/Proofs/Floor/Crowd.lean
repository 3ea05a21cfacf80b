import BoothFloor.Proofs.Floor.Delivery
import BoothFloor.Proofs.Host.Traffic
import BoothFloor.Proofs.Node.Setup
import BoothFloor.Proofs.NodeId
import BoothFloor.Proofs.Visitor.Grounded

/-!
# Who is on a floor

The hosts of a floor are numbered by the rules, everybody else is a guest. Each node plays its role under
the common rules from one round to the next, whatever it hears.
-/

namespace BoothFloor

/-- The hosts of some rules and some guests, under rules that leave every inbox room for four frames from
each of them and that say in a word how long a guest may stay. -/
structure Crowd (r : Rules) (guests : List NodeId) : Prop where
  valid : r.Valid
  distinct : (r.hosts.ids ++ guests).Nodup
  free : ∀ id ∈ r.hosts.ids ++ guests, id.isReserved = false
  guest : ∀ id ∈ guests, r.isHost id = false
  room : 4 * (r.hosts.ids.length + guests.length) ≤ r.frameDepth.toNat
  limit : ∃ limit, r.clientLimit = .ok limit

variable {r : Rules}

/-- A crowd has a host. -/
theorem Crowd.hosts_ne_nil {guests : List NodeId} (crowd : Crowd r guests) : r.hosts.ids ≠ [] := by
  have hfirst : (⟨r.hosts.first⟩ : NodeId) ∈ r.hosts.ids := by
    rw [IdRange.mem_ids_iff, IdRange.contains, Bool.and_eq_true, decide_eq_true_eq, decide_eq_true_eq]
    exact ⟨UInt8.le_refl _, crowd.valid.bounds.hosts_ordered⟩
  exact List.ne_nil_of_mem hfirst

/-- A host that keeps its booth in order under the rules. -/
structure Host.InRole (r : Rules) (h : Host) : Prop where
  role : r.isHost h.id = true
  rules : h.rules = r
  orderly : h.booth.Orderly
  addressed : h.booth.Addressed
  capacity : h.booth.capacity = r.boothCapacity.toNat

/-- A visitor that deals with hosts only under the rules. -/
structure Visitor.InRole (r : Rules) (v : Visitor) : Prop where
  role : r.isHost v.id = false
  rules : v.rules = r
  grounded : v.Grounded

/-- A host in its role serves under the rules. -/
theorem Host.InRole.serves {h : Host} (hrole : h.InRole r) : h.Serves r :=
  ⟨hrole.rules, hrole.orderly, hrole.addressed⟩

/-- A visitor in its role deals with hosts only. -/
theorem Visitor.InRole.isHost {v : Visitor} (hrole : v.InRole r) {b : NodeId} (hbooth : v.booth? = some b) :
    r.isHost b = true :=
  hrole.rules ▸ hrole.grounded.booth b hbooth

/-- A visitor in its role does not deal with itself. -/
theorem Visitor.InRole.ne_self {v : Visitor} (hrole : v.InRole r) {b : NodeId} (hbooth : v.booth? = some b) :
    b ≠ v.id := by
  rintro rfl
  have hhost := hrole.isHost hbooth
  rw [hrole.role] at hhost
  cases hhost

/-- The senders of the messages among some inputs have ids of their own. -/
def Signed (events : List (Moment × Input)) : Prop :=
  ∀ m s msg rssi snr, (m, .message s msg rssi snr) ∈ events → s.isBroadcast = false

/-- A host keeps its booth in order, whatever it hears. -/
theorem Host.InRole.run {h : Host} (hrole : h.InRole r) {events : List (Moment × Input)}
    (hsigned : Signed events) : (h.run events).1.InRole r := by
  have hserves : (h.run events).1.Serves r := runWith_keeps (P := Host.Serves r) hrole.serves
    fun _ m i hmem hlater => hlater.react fun s msg rssi snr heq =>
      hsigned m s msg rssi snr (heq ▸ hmem)
  have hid : (h.run events).1.id = h.id := (h.run_sameFixtures events).id
  refine ⟨?_, hserves.rules, hserves.orderly, hserves.addressed, ?_⟩
  · rw [hid]
    exact hrole.role
  · exact (h.run_sameFixtures events).capacity.trans hrole.capacity

/-- A visitor deals with hosts only, whatever it hears. -/
theorem Visitor.InRole.run {v : Visitor} (hrole : v.InRole r) (events : List (Moment × Input)) :
    (v.run events).1.InRole r where
  role := by
    rw [v.run_id]
    exact hrole.role
  rules := (v.run_rules events).trans hrole.rules
  grounded := run_grounded hrole.grounded events

/-- A machine in its role under the rules. -/
def Machine.InRole (r : Rules) : Machine → Prop
  | host h => h.InRole r
  | visitor v => v.InRole r

/-- A node in its role under the rules, waiting for mail. -/
structure Node.InRole (r : Rules) (n : Node) : Prop where
  rules : n.rules = r
  waits : n.Waits
  machine : n.machine.InRole r

namespace Node

variable {n : Node}

/-- The host of a node in its role. -/
theorem InRole.host (hrole : n.InRole r) {h : Host} (hmachine : n.machine = .host h) : h.InRole r := by
  have hinRole := hrole.machine
  rw [hmachine] at hinRole
  exact hinRole

/-- The visitor of a node in its role. -/
theorem InRole.visitor (hrole : n.InRole r) {v : Visitor} (hmachine : n.machine = .visitor v) :
    v.InRole r := by
  have hinRole := hrole.machine
  rw [hmachine] at hinRole
  exact hinRole

/-- A node in its role whose id is a host's runs a booth. -/
theorem InRole.exists_host (hrole : n.InRole r) (hid : r.isHost n.id = true) :
    ∃ h, n.machine = .host h := by
  cases hmachine : n.machine with
  | host h => exact ⟨h, rfl⟩
  | visitor v =>
    have hvisitor := (hrole.visitor hmachine).role
    rw [Node.id, hmachine] at hid
    rw [Machine.id, hvisitor] at hid
    cases hid

/-- A node in its role whose id is a guest's visits booths. -/
theorem InRole.exists_visitor (hrole : n.InRole r) (hid : r.isHost n.id = false) :
    ∃ v, n.machine = .visitor v := by
  cases hmachine : n.machine with
  | visitor v => exact ⟨v, rfl⟩
  | host h =>
    have hhost := (hrole.host hmachine).role
    rw [Node.id, hmachine] at hid
    rw [Machine.id, hhost] at hid
    cases hid

/-- A node that has been set up is in its role. -/
theorem inRole_fresh (r : Rules) (id : NodeId) : (fresh r id).InRole r where
  rules := rfl
  waits :=
    { intents := rfl
      announced := fun h => absurd rfl h
      depth := Nat.le_max_left _ _
      connected := Nat.zero_lt_two }
  machine := by
    unfold fresh Machine.ofRules IdRange.roleOf
    dsimp only
    cases hcontains : r.hosts.contains id with
    | true =>
      exact ⟨hcontains, rfl, Booth.orderly_ofRules id r, Booth.addressed_ofRules id r, rfl⟩
    | false => exact ⟨hcontains, rfl, Visitor.grounded_ofRules id r⟩

/-- A node that has settled is in its role, if it was before. -/
theorem InRole.settled (hrole : n.InRole r) (f : Floor) (radio : Radio) (now : Instant)
    (hsigned : Signed (n.events now)) : (f.settled radio now n).InRole r where
  rules := (f.settled_rules radio now n).trans hrole.rules
  waits := (Floor.settled_waits hrole.waits f radio now).1
  machine := by
    rw [f.settled_machine]
    cases hmachine : n.machine with
    | host h =>
      rw [Machine.run_host]
      exact (hrole.host hmachine).run hsigned
    | visitor v =>
      rw [Machine.run_visitor]
      exact (hrole.visitor hmachine).run _

end Node

end BoothFloor
