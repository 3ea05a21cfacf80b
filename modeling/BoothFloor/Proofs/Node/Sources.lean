import BoothFloor.Proofs.Node.History

/-!
# Where a node's messages come from

Nothing comes to a node but what it is handed: every message that its machine is given in the course of a life has
been read from a frame that was delivered. And whatever a machine sends, it sends in reaction to an input.
-/

namespace BoothFloor

/-- What is heard in a frame of a visitor is what a visitor can say in it. -/
theorem Rules.hear_guest_iff {r : Rules} {f : Frame} (hguest : r.isHost f.source = false) {message : Message} :
    r.hear f = some (.message f.source message f.rssi f.snr) ↔ Wire.decode f.bytes .user = .ok message := by
  have hrole : r.hosts.roleOf f.source = .user := if_neg (Bool.eq_false_iff.mp hguest)
  rw [hear_eq_some_iff, hrole]
  simp

namespace Node

variable {n : Node} {past : List Happening} {m : Moment} {source : NodeId} {message : Message} {rssi : Int16}
  {snr : Int8}

/-- A message that the machine is given in the course of a life is heard in a frame that was in the inbox from the
beginning or has been delivered. -/
theorem hear_of_history (h : (m, .message source message rssi snr) ∈ n.history past) :
    ∃ f, (f ∈ n.inbox.frames.items ∨ .deliver f ∈ past) ∧
      n.rules.hear f = some (.message source message rssi snr) := by
  induction past generalizing n with
  | nil => cases h
  | cons e rest ih =>
    rw [history, List.mem_append] at h
    rcases h with hgiven | hlater
    · cases e with
      | step now takes =>
        obtain ⟨f, hf, hread⟩ := hear_of_event hgiven
        exact ⟨f, .inl hf, hread⟩
      | deliver | submit | confirm => cases hgiven
    · obtain ⟨f, hf, hread⟩ := ih hlater
      have hrules : (n.undergo e).rules = n.rules := (n.live_sameMake [e]).rules
      refine ⟨f, ?_, hrules ▸ hread⟩
      rcases hf with hthere | hdelivered
      · cases e with
        | deliver g =>
          rcases mem_frames_deliver hthere with hthere | rfl
          · exact .inl hthere
          · exact .inr List.mem_cons_self
        | submit i => exact .inl (n.inbox.submit_frames i ▸ hthere)
        | confirm => exact .inl hthere
        | step now takes => exact .inl (mem_frames_of_step hthere)
      · exact .inr (List.mem_cons_of_mem _ hdelivered)

/-- A message that the machine of a node is given from a visitor has been read from a frame that was delivered. -/
theorem delivered_of_guest {r : Rules} {id : NodeId}
    (h : (m, .message source message rssi snr) ∈ (fresh r id).history past) (hguest : r.isHost source = false) :
    ∃ f, .deliver f ∈ past ∧ f.source = source ∧ f.rssi = rssi ∧ f.snr = snr ∧
      Wire.decode f.bytes .user = .ok message := by
  obtain ⟨f, hf, hread⟩ := hear_of_history h
  obtain ⟨rfl, -, rfl, rfl⟩ := Rules.hear_eq_some_iff.mp hread
  exact ⟨f, hf.resolve_left List.not_mem_nil, rfl, rfl, rfl, (Rules.hear_guest_iff hguest).mp hread⟩

/-- The life of a host is a run of the host over its history, which asks for what the node sends. -/
theorem live_host {r : Rules} {id : NodeId} (hhost : r.isHost id = true) (past : List Happening) :
    ((fresh r id).live past).machine = .host ((Host.ofRules id r).run ((fresh r id).history past)).1 ∧
      (fresh r id).messages past = Action.sent ((Host.ofRules id r).run ((fresh r id).history past)).2 := by
  obtain ⟨hmachine, hmessages, -⟩ := (fresh r id).live_run past
  rw [machine_fresh_of_host hhost, Machine.run_host] at hmachine hmessages
  exact ⟨hmachine, hmessages⟩

end Node

end BoothFloor
