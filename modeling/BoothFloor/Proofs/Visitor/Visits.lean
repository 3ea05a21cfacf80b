import BoothFloor.Proofs.Run
import BoothFloor.Proofs.Visitor.Reaction

/-!
# The visits of a visitor

A visitor keeps its id and its rules for good, and its list of visits grows in one way only: when the
booth that it has asked to register says that the registration has succeeded. What a visitor sends is
a request, never such an answer.
-/

namespace BoothFloor

/-- The messages by which a visitor addresses a booth. -/
def Message.isRequest : Message → Bool
  | boothScan | connectRequest | userResponse _ | registerRequest | queueLeave | exitRequest
  | chat none _ => true
  | _ => false

namespace Visitor

/-- Noting a booth as spent changes nothing else. -/
theorem markSpent_eq (v : Visitor) (booth : NodeId) :
    v.markSpent booth = { v with spent := if booth ∈ v.spent then v.spent else v.spent ++ [booth] } := by
  unfold markSpent
  split <;> rfl

/-- A visitor keeps its id. -/
theorem react_id (v : Visitor) (m : Moment) (i : Input) : (v.react m i).1.id = v.id := by
  have hreaction := v.react_reaction m i
  generalize v.react m i = outcome at hreaction
  cases hreaction <;> simp [startScan, freed, markSpent_eq]

/-- A visitor plays by the same rules all along. -/
theorem react_rules (v : Visitor) (m : Moment) (i : Input) : (v.react m i).1.rules = v.rules := by
  have hreaction := v.react_reaction m i
  generalize v.react m i = outcome at hreaction
  cases hreaction <;> simp [startScan, freed, markSpent_eq]

/-- A booth is on the list of visits if it was before or has just confirmed the registration. -/
theorem mem_visits_react {v : Visitor} {m : Moment} {i : Input} {booth : NodeId}
    (h : booth ∈ (v.react m i).1.visits) :
    booth ∈ v.visits ∨
      ∃ reason rssi snr, i = .message booth (.registerResponse true reason) rssi snr := by
  have hreaction := v.react_reaction m i
  generalize v.react m i = outcome at hreaction h
  cases hreaction with
  | enters source reason rssi snr =>
    rw [markSpent_eq] at h
    rcases List.mem_append.mp h with hold | hnew
    · exact .inl hold
    · obtain rfl := List.mem_singleton.mp hnew
      exact .inr ⟨reason, rssi, snr, rfl⟩
  | refused =>
    rw [markSpent_eq] at h
    exact .inl h
  | _ => exact .inl h

/-- The booth of the present session is on the list of visits. -/
def PresentVisited (v : Visitor) : Prop := ∀ booth start, v.phase = .inUse booth start → booth ∈ v.visits

/-- A reaction notes the booth of a session on the list of visits. -/
theorem react_presentVisited {v : Visitor} (h : v.PresentVisited) (m : Moment) (i : Input) :
    (v.react m i).1.PresentVisited := by
  have hreaction := v.react_reaction m i
  generalize v.react m i = outcome at hreaction
  intro booth start hphase
  cases hreaction with
  | enters source =>
    rw [markSpent_eq]
    cases hphase
    exact List.mem_append_right _ List.mem_cons_self
  | idle | chats | answers | showsText | showsChat | showsExit | rescans | starts | hears | findsNone
  | reconnects | reaffirms | reclaims => exact h booth start hphase
  | _ => cases hphase

/-- A visitor sends requests only. -/
theorem isRequest_of_react {v : Visitor} {m : Moment} {i : Input} {dest : NodeId} {msg : Message}
    (h : (dest, msg) ∈ Action.sent (v.react m i).2) : msg.isRequest = true := by
  have hreaction := v.react_reaction m i
  generalize v.react m i = outcome at hreaction h
  cases hreaction with
  | starts | rescans =>
    rw [startScan_sent, List.mem_map] at h
    obtain ⟨_, -, heq⟩ := h
    cases heq
    rfl
  | queues =>
    dsimp only at h
    split at h <;> cases h
  | _ =>
    -- a silent reaction contradicts `h` at once
    simp [Action.sent_append] at h <;> grind [Message.isRequest]

/-- A visitor keeps its id for a whole run. -/
theorem run_id (v : Visitor) (events : List (Moment × Input)) : (v.run events).1.id = v.id := by
  apply runWith_keeps (P := fun w : Visitor => w.id = v.id) rfl
  intro w m i _ hid
  rw [w.react_id m i, hid]

/-- A visitor plays by the same rules for a whole run. -/
theorem run_rules (v : Visitor) (events : List (Moment × Input)) : (v.run events).1.rules = v.rules := by
  apply runWith_keeps (P := fun w : Visitor => w.rules = v.rules) rfl
  intro w m i _ hrules
  rw [w.react_rules m i, hrules]

/-- A booth is on the list of visits if it was before a run or has confirmed a registration in it. -/
theorem mem_visits_run {v : Visitor} {events : List (Moment × Input)} {booth : NodeId}
    (h : booth ∈ (v.run events).1.visits) :
    booth ∈ v.visits ∨
      ∃ m reason rssi snr, (m, .message booth (.registerResponse true reason) rssi snr) ∈ events := by
  induction events generalizing v with
  | nil => exact .inl h
  | cons e rest ih =>
    obtain ⟨m, i⟩ := e
    rcases ih h with hfirst | ⟨m', reason, rssi, snr, hmem⟩
    · rcases mem_visits_react hfirst with hold | ⟨reason, rssi, snr, rfl⟩
      · exact .inl hold
      · exact .inr ⟨m, reason, rssi, snr, List.mem_cons_self⟩
    · exact .inr ⟨m', reason, rssi, snr, List.mem_cons_of_mem _ hmem⟩

/-- The booth of a session is on the list of visits all along a run. -/
theorem run_presentVisited {v : Visitor} (h : v.PresentVisited) (events : List (Moment × Input)) :
    (v.run events).1.PresentVisited :=
  runWith_keeps h fun _ m i _ hv => react_presentVisited hv m i

/-- A visitor sends requests only, in a whole run. -/
theorem isRequest_of_run {v : Visitor} {events : List (Moment × Input)} {dest : NodeId} {msg : Message}
    (h : (dest, msg) ∈ Action.sent (v.run events).2) : msg.isRequest = true := by
  induction events generalizing v with
  | nil => cases h
  | cons e rest ih =>
    change _ ∈ Action.sent ((v.react e.1 e.2).2 ++ ((v.react e.1 e.2).1.run rest).2) at h
    rw [Action.sent_append, List.mem_append] at h
    exact h.elim isRequest_of_react ih

end Visitor

end BoothFloor
