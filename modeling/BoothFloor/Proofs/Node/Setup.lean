import BoothFloor.Node

/-!
# Setting up nodes

Some nodes can be set up if the rules can be played by and no id is reserved, and in no other case; a
node that has been set up has seen nothing yet.
-/

namespace BoothFloor

namespace Node

/-- The node with id `id` before its first step. -/
def fresh (r : Rules) (id : NodeId) : Node where
  rules := r
  machine := .ofRules id r
  inbox := .empty r.frameDepth.toNat r.intentDepth.toNat

/-- A node can be set up exactly under rules without a fault and with an id that is free. -/
theorem ofRules_eq_ok_iff {id : NodeId} {r : Rules} {n : Node} :
    ofRules id r = .ok n ↔ r.Valid ∧ id.isReserved = false ∧ n = fresh r id := by
  unfold ofRules Rules.Valid
  cases r.fault? with
  | some e => simp
  | none =>
    cases id.isReserved with
    | true => simp
    | false => simp [fresh, eq_comm]

/-- Some nodes can be set up exactly if each of them can. -/
theorem mapM_ofRules_eq_ok_iff {ids : List NodeId} {r : Rules} {nodes : List Node} :
    ids.mapM (ofRules · r) = .ok nodes ↔
      (∀ id ∈ ids, r.Valid ∧ id.isReserved = false) ∧ nodes = ids.map (fresh r) := by
  induction ids generalizing nodes with
  | nil =>
    rw [List.mapM_nil]
    constructor
    · intro h
      cases h
      exact ⟨fun _ hid => absurd hid List.not_mem_nil, rfl⟩
    · rintro ⟨-, rfl⟩
      rfl
  | cons id rest ih =>
    rw [List.mapM_cons]
    constructor
    · intro h
      cases hfirst : ofRules id r with
      | error e =>
        rw [hfirst] at h
        cases h
      | ok n =>
        cases hrest : rest.mapM (ofRules · r) with
        | error e =>
          rw [hfirst, hrest] at h
          cases h
        | ok others =>
          rw [hfirst, hrest] at h
          cases h
          obtain ⟨hvalid, hfree, rfl⟩ := ofRules_eq_ok_iff.mp hfirst
          obtain ⟨hall, rfl⟩ := ih.mp hrest
          refine ⟨fun other hother => ?_, rfl⟩
          rcases List.mem_cons.mp hother with rfl | hother
          · exact ⟨hvalid, hfree⟩
          · exact hall other hother
    · rintro ⟨hall, rfl⟩
      obtain ⟨hvalid, hfree⟩ := hall id List.mem_cons_self
      have hfirst : ofRules id r = .ok (fresh r id) := ofRules_eq_ok_iff.mpr ⟨hvalid, hfree, rfl⟩
      have hrest : rest.mapM (ofRules · r) = .ok (rest.map (fresh r)) :=
        ih.mpr ⟨fun other hother => hall other (List.mem_cons_of_mem _ hother), rfl⟩
      rw [hfirst, hrest]
      rfl

/-- The id of a node is the one that it was set up with. -/
theorem id_fresh (r : Rules) (id : NodeId) : (fresh r id).id = id := by
  unfold Node.id fresh Machine.ofRules
  cases r.hosts.roleOf id <;> rfl

/-- Nodes that are set up for a row of ids have these ids. -/
theorem map_id_fresh (r : Rules) (ids : List NodeId) : (ids.map (fresh r)).map Node.id = ids := by
  rw [List.map_map]
  exact (List.map_congr_left fun id _ => id_fresh r id).trans (List.map_id ids)

/-- A host that has been set up is a new one. -/
theorem host_of_fresh {r : Rules} {id : NodeId} {h : Host} (hmachine : (fresh r id).machine = .host h) :
    h = .ofRules id r := by
  unfold fresh Machine.ofRules at hmachine
  dsimp only at hmachine
  split at hmachine <;> cases hmachine
  rfl

/-- A node with the id of a visitor is set up with a new visitor. -/
theorem machine_fresh {r : Rules} {id : NodeId} (hguest : r.isHost id = false) :
    (fresh r id).machine = .visitor (.ofRules id r) := by
  have hrole : r.hosts.roleOf id = .user := if_neg (Bool.eq_false_iff.mp hguest)
  rw [fresh, Machine.ofRules, hrole]

/-- A node with the id of a host is set up with a new host. -/
theorem machine_fresh_of_host {r : Rules} {id : NodeId} (hhost : r.isHost id = true) :
    (fresh r id).machine = .host (.ofRules id r) := by
  have hrole : r.hosts.roleOf id = .admin := if_pos hhost
  rw [fresh, Machine.ofRules, hrole]

/-- A visitor that has been set up is a new one. -/
theorem visitor_of_fresh {r : Rules} {id : NodeId} {v : Visitor}
    (hmachine : (fresh r id).machine = .visitor v) : v = .ofRules id r := by
  unfold fresh Machine.ofRules at hmachine
  dsimp only at hmachine
  split at hmachine <;> cases hmachine
  rfl

end Node

end BoothFloor
