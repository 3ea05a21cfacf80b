import BoothFloor.Proofs.Host.Confirmation
import BoothFloor.Proofs.Message.Wire
import BoothFloor.Proofs.Node.Life

/-!
# What a machine says

The frame of chat does not tell whether it names a sender; its reader goes by the role of the node that
it comes from. That is sound because a machine says only what its role can say: a booth host passes chat
on under the name of its sender, a visitor sends its own without a name. So every frame of a machine is
read as the message that it carries, but for what the cap takes off its text.
-/

namespace BoothFloor

/-- Everything that is sent can be said by a sender of a role. -/
def AllFrom (source : Role) (letters : List (NodeId × Message)) : Prop := ∀ x ∈ letters, x.2.IsFrom source

section

variable {source : Role} {a b : List (NodeId × Message)}

/-- Silence can be kept by anyone. -/
@[simp]
theorem allFrom_nil : AllFrom source [] := fun _ h => absurd h List.not_mem_nil

/-- What is sent in front of something else is looked at apart. -/
@[simp]
theorem allFrom_cons {x : NodeId × Message} : AllFrom source (x :: a) ↔ x.2.IsFrom source ∧ AllFrom source a := by
  simp [AllFrom]

/-- What is sent in two parts is looked at part by part. -/
@[simp]
theorem allFrom_append : AllFrom source (a ++ b) ↔ AllFrom source a ∧ AllFrom source b := by
  simp [AllFrom, or_imp, forall_and]

/-- Of two rows of messages one is sent. -/
theorem AllFrom.ite {c : Prop} [Decidable c] (ha : AllFrom source a) (hb : AllFrom source b) :
    AllFrom source (if c then a else b) := by
  split
  · exact ha
  · exact hb

/-- A message that anyone can say goes to several receivers. -/
theorem allFrom_map {users : List NodeId} {msg : Message} (h : msg.IsFrom source) :
    AllFrom source (users.map (·, msg)) := by
  intro x hx
  obtain ⟨u, -, rfl⟩ := List.mem_map.mp hx
  exact h

end

namespace Booth

/-- Anyone could tell the waiters their places. -/
theorem allFrom_queueUpdates (b : Booth) (source : Role) : AllFrom source b.queueUpdates := by
  rintro ⟨u, msg⟩ h
  obtain ⟨-, position, total, rfl⟩ := mem_queueUpdates h
  trivial

/-- Anyone could offer a slot. -/
theorem allFrom_offerLetters (b : Booth) (now : Instant) (source : Role) :
    AllFrom source (b.offerLetters now) := by
  rintro ⟨u, msg⟩ h
  obtain ⟨-, rfl⟩ := mem_offerLetters h
  trivial

/-- Anyone could tell of an offer withdrawn. -/
theorem allFrom_withdrawalLetters (b : Booth) (now : Instant) (limit : Span) (source : Role) :
    AllFrom source (b.withdrawalLetters now limit) := by
  rintro ⟨u, msg⟩ h
  obtain ⟨position, total, rfl⟩ := mem_withdrawalLetters h
  trivial

/-- Anyone could answer a request to register. -/
theorem allFrom_answerLetters (u : NodeId) (now : Instant) (judged : Verdict × Booth) (source : Role) :
    AllFrom source (answerLetters u now judged) := by
  obtain ⟨verdict, b⟩ := judged
  have hnews := b.allFrom_queueUpdates source
  have hoffer := b.allFrom_offerLetters now source
  rcases verdict with (_ | _) | _ | _ | _ | _ <;> simp [answerLetters, Message.IsFrom, hnews, hoffer]

end Booth

namespace Host

/-- What a host answers to a message other than chat anyone could say. -/
theorem onMessage_allFrom {msg : Message} (hquiet : ∀ sender text, msg ≠ .chat sender text) (h : Host) (now : Instant)
    (source : NodeId) (role : Role) : AllFrom role (Action.sent (h.onMessage now source msg).2) := by
  rw [onMessage_sent]
  refine AllFrom.ite allFrom_nil ?_
  cases msg with
  | registerRequest =>
    rw [onRegister_sent]
    exact Booth.allFrom_answerLetters _ _ _ _
  | exitRequest =>
    rw [onExit_sent]
    refine AllFrom.ite ?_ ?_ <;> simp [Message.IsFrom, Booth.allFrom_offerLetters]
  | queueLeave =>
    rw [onQueueLeave_sent, allFrom_append]
    exact ⟨.ite (Booth.allFrom_queueUpdates _ _) allFrom_nil, .ite (Booth.allFrom_offerLetters _ _ _) allFrom_nil⟩
  | chat sender text => exact absurd rfl (hquiet sender text)
  | _ => simp [Message.IsFrom]

/-- At a tick a host says what anyone could say. -/
theorem onTick_allFrom (h : Host) (m : Moment) (role : Role) : AllFrom role (Action.sent (h.onTick m).2) := by
  rw [onTick_sent, broadcast_sent, sweep_sent, allFrom_append]
  refine ⟨.ite ?_ allFrom_nil, .ite (by simp [Message.IsFrom]) allFrom_nil⟩
  simp only [allFrom_append]
  exact ⟨⟨allFrom_map trivial, Booth.allFrom_withdrawalLetters _ _ _ _⟩, Booth.allFrom_offerLetters _ _ _⟩

/-- What a host says on account of anything but chat anyone could say. -/
theorem react_allFrom_of_quiet {i : Input}
    (hquiet : ∀ source sender text rssi snr, i ≠ .message source (.chat sender text) rssi snr) (h : Host) (m : Moment)
    (role : Role) : AllFrom role (Action.sent (h.react m i).2) := by
  cases i with
  | start => simp [react, announceTo, Message.IsFrom]
  | timer => exact allFrom_nil
  | message source msg rssi snr =>
    exact onMessage_allFrom (fun sender text heq => hquiet source sender text rssi snr (heq ▸ rfl)) h m.now source role
  | tick => exact h.onTick_allFrom m role
  | intent i =>
    cases i with
    | chat text =>
      change AllFrom role (Action.sent (h.booth.activeUsers.map fun u => .send u (.adminMessage text)))
      rw [Action.sent_map_send]
      exact allFrom_map trivial
    | _ => simp [react, onIntent, Message.IsFrom]

/-- A host says what a host can say: the chat that it passes on names its sender. -/
theorem react_allFrom (h : Host) (m : Moment) (i : Input) : AllFrom .admin (Action.sent (h.react m i).2) := by
  by_cases hchat : ∃ source sender text rssi snr, i = .message source (.chat sender text) rssi snr
  · obtain ⟨source, sender, text, rssi, snr, rfl⟩ := hchat
    change AllFrom .admin (Action.sent (h.onMessage m.now source (.chat sender text)).2)
    rw [onMessage_sent]
    refine .ite allFrom_nil ?_
    simp only [onChat_sent]
    exact .ite (allFrom_map (by simp [Message.IsFrom])) allFrom_nil
  · exact react_allFrom_of_quiet (fun source sender text rssi snr heq => hchat ⟨source, sender, text, rssi, snr, heq⟩)
      h m .admin

end Host

namespace Visitor

/-- A visitor says what a visitor can say: its chat does not name a sender. -/
theorem react_allFrom (v : Visitor) (m : Moment) (i : Input) : AllFrom .user (Action.sent (v.react m i).2) := by
  have hreaction := v.react_reaction m i
  generalize v.react m i = outcome at hreaction
  cases hreaction with
  | starts | rescans =>
    rw [startScan_sent]
    exact allFrom_map trivial
  | queues =>
    rw [Action.sent_cons_stopTimer]
    split <;> exact allFrom_nil
  | connects => simp [Action.sent_append, Message.IsFrom]
  | _ => simp [Message.IsFrom]

end Visitor

namespace Machine

/-- A machine says what its role can say. -/
theorem react_allFrom (s : Machine) (m : Moment) (i : Input) : AllFrom s.role (Action.sent (s.react m i).2) := by
  cases s with
  | host h => exact h.react_allFrom m i
  | visitor v => exact v.react_allFrom m i

/-- Over a whole run a machine says what its role can say. -/
theorem run_allFrom (s : Machine) (events : List (Moment × Input)) :
    AllFrom s.role (Action.sent (s.run events).2) := by
  induction events generalizing s with
  | nil => exact allFrom_nil
  | cons e rest ih =>
    have hrole : (s.react e.1 e.2).1.role = s.role := by cases s <;> rfl
    change AllFrom s.role (Action.sent ((s.react e.1 e.2).2 ++ ((s.react e.1 e.2).1.run rest).2))
    rw [Action.sent_append, allFrom_append]
    exact ⟨s.react_allFrom e.1 e.2, hrole ▸ ih (s.react e.1 e.2).1⟩

/-- Whatever state a machine is in and whatever it reacts to, each of its messages is carried by a frame
of the longest length at most, and its receivers read it from that frame, but for what the cap takes off
its text. It is chat with a sender only if the machine hosts a booth, and chat without one only if it
visits booths. -/
theorem react_legible (s : Machine) (m : Moment) (i : Input) :
    ∀ x ∈ Action.sent (s.react m i).2,
      (Wire.encode x.2).length ≤ Wire.maxFrame ∧
        (∃ msg, Wire.decode (Wire.encode x.2) s.role = .ok msg ∧ x.2.Arrives msg) ∧
        ∀ sender text, x.2 = .chat sender text → (sender.isSome = true ↔ s.role = .admin) := by
  intro x hx
  have hfrom : x.2.IsFrom s.role := s.react_allFrom m i x hx
  refine ⟨Wire.length_encode_le x.2, ⟨x.2.received, ?_, x.2.arrives_received⟩, ?_⟩
  · have hread := Wire.decode_encode_append hfrom []
    rwa [List.append_nil] at hread
  · intro sender text heq
    rwa [heq] at hfrom

/-- One of two visitors inside a booth says something with a NUL in it; its chat arrives at the other one
without what follows the NUL. -/
theorem react_legible_relayedChat :
    let h := ((Host.ofRules ⟨1⟩ .brisk).run (Host.threeVisitors.take 4)).1
    let said : Input := .message ⟨4⟩ (.chat none "n\u00fc\x00!") 0 0
    let relayed : Message := .chat (some ⟨4⟩) "n\u00fc\x00!"
    (⟨5⟩, relayed) ∈ Action.sent ((Machine.host h).react ⟨⟨30⟩, 2⟩ said).2 ∧
      (Wire.encode relayed).length ≤ Wire.maxFrame ∧
      Wire.decode (Wire.encode relayed) .admin = .ok (.chat (some ⟨4⟩) "n\u00fc") ∧
      relayed.Arrives (.chat (some ⟨4⟩) "n\u00fc") := by
  intro h said relayed
  have hsent : (⟨5⟩, relayed) ∈ Action.sent ((Machine.host h).react ⟨⟨30⟩, 2⟩ said).2 := by decide
  have hread : Wire.decode (Wire.encode relayed) .admin = .ok (.chat (some ⟨4⟩) "n\u00fc") := rfl
  obtain ⟨hlength, ⟨msg, hdecode, harrives⟩, -⟩ := react_legible (.host h) ⟨⟨30⟩, 2⟩ said _ hsent
  obtain rfl := Except.ok.inj (hread.symm.trans hdecode)
  exact ⟨hsent, hlength, hread, harrives⟩

end Machine

namespace Node

/-- Everyone who goes by the ids of the rules can read the frames that a node puts on the air at any time
of its life. -/
theorem live_legible {r : Rules} {id : NodeId} {past : List Happening} {now : Instant} {takes : Nat → Bool}
    {t : Transmission}
    (h : t ∈ RoundStep.transmissions ⟨(((fresh r id).live past).step now takes).1,
      (((fresh r id).live past).step now takes).2⟩) :
    ∃ msg, t.bytes = Wire.encode msg ∧ Wire.decode t.bytes (r.hosts.roleOf t.source) = .ok msg.received := by
  have hmake := (fresh r id).live_sameMake past
  obtain ⟨dest, msg, hsent, rfl⟩ := mem_transmissions_step h
  have hrole : ((fresh r id).live past).machine.role = r.hosts.roleOf ((fresh r id).live past).id := by
    rw [hmake.role, role_fresh, hmake.id, id_fresh]
  have hread := Wire.decode_encode_append (Machine.run_allFrom _ _ _ hsent) []
  rw [List.append_nil, hrole] at hread
  exact ⟨msg, rfl, hread⟩

end Node

end BoothFloor
