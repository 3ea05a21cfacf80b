import BoothFloor.Floor
import BoothFloor.Proofs.Host.Register
import BoothFloor.Proofs.Node.Turn
import BoothFloor.Proofs.Visitor.Visits

/-!
# Steps of a node

What a step has to do with the nodes around it: the messages that its machine is given come from the
frames of its inbox, and the frames that it puts on the air carry the messages of its machine's run.
-/

namespace BoothFloor

namespace Machine

/-- A machine keeps its id for a whole run. -/
theorem run_id (s : Machine) (events : List (Moment × Input)) : (s.run events).1.id = s.id := by
  cases s with
  | host h =>
    rw [run_host]
    exact (h.run_sameFixtures events).id
  | visitor v =>
    rw [run_visitor]
    exact v.run_id events

end Machine

namespace Node

variable {n : Node} {now : Instant} {takes : Nat → Bool}

/-- The inputs of the next turn, each with its moment. -/
def events (n : Node) (now : Instant) : List (Moment × Input) := (n.inputs now).map (n.moment now, ·)

/-- After a step the machine is where its run over the inputs has led it. -/
theorem step_machine (n : Node) (now : Instant) (takes : Nat → Bool) :
    (n.step now takes).1.machine = (n.machine.run (n.events now)).1 := (n.turn_run now).1

/-- A step counts one tick. -/
theorem step_tick (n : Node) (now : Instant) (takes : Nat → Bool) : (n.step now takes).1.tick = n.tick + 1 :=
  congrArg Moment.tick (n.turn_moment now)

/-- A host after a step was one before, and has run over the inputs. -/
theorem host_of_step {h : Host} (hstep : (n.step now takes).1.machine = .host h) :
    ∃ before, n.machine = .host before ∧ h = (before.run (n.events now)).1 := by
  rw [step_machine] at hstep
  cases hrole : n.machine with
  | host before =>
    rw [hrole, Machine.run_host] at hstep
    exact ⟨before, rfl, (Machine.host.inj hstep).symm⟩
  | visitor v =>
    rw [hrole, Machine.run_visitor] at hstep
    cases hstep

/-- A visitor after a step was one before, and has run over the inputs. -/
theorem visitor_of_step {v : Visitor} (hstep : (n.step now takes).1.machine = .visitor v) :
    ∃ before, n.machine = .visitor before ∧ v = (before.run (n.events now)).1 := by
  rw [step_machine] at hstep
  cases hrole : n.machine with
  | host h =>
    rw [hrole, Machine.run_host] at hstep
    cases hstep
  | visitor before =>
    rw [hrole, Machine.run_visitor] at hstep
    exact ⟨before, rfl, (Machine.visitor.inj hstep).symm⟩

/-- A node keeps its id. -/
theorem step_id (n : Node) (now : Instant) (takes : Nat → Bool) : (n.step now takes).1.id = n.id := by
  rw [Node.id, step_machine]
  exact n.machine.run_id _

/-- A node plays by the same rules all along. -/
theorem step_rules (n : Node) (now : Instant) (takes : Nat → Bool) :
    (n.step now takes).1.rules = n.rules := n.turn_rules now

/-- A frame in the inbox after one has been handed in is that one or was there before. -/
theorem mem_frames_deliver {f g : Frame} (h : g ∈ (n.deliver f).inbox.frames.items) :
    g ∈ n.inbox.frames.items ∨ g = f := by
  change g ∈ (n.inbox.deliver f).2.frames.items at h
  have hsending := n.inbox.frames.send_sending f
  rw [Inbox.deliver_frames, Mailbox.push] at h
  generalize n.inbox.frames.send f = outcome at hsending h
  cases hsending with
  | refused => exact .inl h
  | appended => exact (List.mem_append.mp h).imp_right List.mem_singleton.mp
  | replaced => exact (List.mem_append.mp h).imp List.mem_of_mem_tail List.mem_singleton.mp

/-- A step brings no frames into the inbox. -/
theorem mem_frames_of_step {f : Frame} (h : f ∈ (n.step now takes).1.inbox.frames.items) :
    f ∈ n.inbox.frames.items := by
  change f ∈ (n.turn now).node.inbox.frames.items at h
  rw [(n.turn_sameMail now).frames, Inbox.afterTurn_frames] at h
  split at h
  · cases h
  · exact h

/-- A frame that a step puts on the air carries a message of the machine's run. -/
theorem mem_transmissions_step {t : Transmission}
    (h : t ∈ RoundStep.transmissions ⟨(n.step now takes).1, (n.step now takes).2⟩) :
    ∃ dest msg, (dest, msg) ∈ Action.sent (n.machine.run (n.events now)).2 ∧ t = ⟨n.id, dest, Wire.encode msg⟩ := by
  unfold RoundStep.transmissions at h
  obtain ⟨d, hd, rfl⟩ := List.mem_map.mp h
  have hsent : d ∈ dispatch takes (n.turn now).sent := (List.mem_filter.mp hd).1
  rw [dispatch, List.mem_mapIdx] at hsent
  obtain ⟨i, hi, rfl⟩ := hsent
  refine ⟨(n.turn now).sent[i].1, (n.turn now).sent[i].2, ?_, ?_⟩
  · have hall : ∀ x ∈ (n.turn now).sent, x ∈ Action.sent (n.machine.run (n.events now)).2 :=
      fun x hx => (n.turn_run now).2.1 ▸ hx
    exact hall _ (List.getElem_mem hi)
  · rw [step_id]

/-- A message that the machine is given is what is heard in a frame of the inbox. -/
theorem hear_of_event {m : Moment} {source : NodeId} {message : Message} {rssi : Int16} {snr : Int8}
    (hevent : (m, .message source message rssi snr) ∈ n.events now) :
    ∃ f ∈ n.inbox.frames.items, n.rules.hear f = some (.message source message rssi snr) := by
  obtain ⟨i, h, heq⟩ := List.mem_map.mp hevent
  obtain ⟨-, rfl⟩ := Prod.mk.inj heq
  have hheard : .message source message rssi snr ∈ n.heard := by
    obtain ⟨later, hinputs, hquiet, -⟩ := n.exists_later now
    rw [hinputs, List.mem_append, List.mem_append] at h
    rcases h with h | h | h
    · cases mem_opening h
    · exact h
    · exact absurd h (hquiet _ _ _ _)
  unfold heard at hheard
  split at hheard
  · exact List.mem_filterMap.mp hheard
  · cases hheard

/-- A message that the machine is given was read from a frame of the inbox. -/
theorem frame_of_event {m : Moment} {source : NodeId} {message : Message} {rssi : Int16} {snr : Int8}
    (hevent : (m, .message source message rssi snr) ∈ n.events now) :
    ∃ f ∈ n.inbox.frames.items,
      f.source = source ∧ Wire.decode f.bytes (n.rules.hosts.roleOf source) = .ok message := by
  obtain ⟨f, hf, hread⟩ := hear_of_event hevent
  obtain ⟨rfl, hdecode, -, -⟩ := Rules.hear_eq_some_iff.mp hread
  exact ⟨f, hf, rfl, hdecode⟩

end Node

end BoothFloor
