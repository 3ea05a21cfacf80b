import BoothFloor.Proofs.Action
import BoothFloor.Proofs.Message.Wire

/-!
# Dealings between a visitor and a booth

A request to register or to leave, the answer to a registration, news of the queue, an offer and an alert
settle where a visitor stands with a booth. These are the dealings of the two; whatever else they say to
each other changes nothing of it.
-/

namespace BoothFloor

/-- The messages that settle where a visitor stands with a booth. -/
def Message.isDealing : Message → Bool
  | registerRequest | queueReady | queueLeave | exitRequest | timeoutAlert => true
  | registerResponse .. | queueInfo .. | queueUpdate .. => true
  | _ => false

/-- News of a place in the queue, which says that there is one. -/
def Message.isNews : Message → Bool
  | queueInfo position total | queueUpdate position total => position ≠ 0 && total ≠ 0
  | _ => false

/-- No dealing carries text. -/
theorem Message.isPlain_of_isDealing {msg : Message} (h : msg.isDealing = true) : msg.isPlain = true := by
  cases msg <;> first | rfl | cases h

/-- The dealings with a node among some messages. -/
def dealings (u : NodeId) (letters : List (NodeId × Message)) : List Message :=
  letters.filterMap fun x => if x.1 = u ∧ x.2.isDealing = true then some x.2 else none

variable {u b : NodeId} {msg : Message}

@[simp]
theorem dealings_nil (u : NodeId) : dealings u [] = [] := rfl

/-- Only a dealing with the node itself counts. -/
theorem dealings_cons (u dest : NodeId) (msg : Message) (letters : List (NodeId × Message)) :
    dealings u ((dest, msg) :: letters) =
      if dest = u ∧ msg.isDealing = true then msg :: dealings u letters else dealings u letters := by
  rw [dealings, List.filterMap_cons]
  by_cases h : dest = u ∧ msg.isDealing = true
  · simp only [if_pos h]
    rfl
  · simp only [if_neg h]
    rfl

/-- Dealings follow one another as the messages do. -/
@[simp]
theorem dealings_append (u : NodeId) (first second : List (NodeId × Message)) :
    dealings u (first ++ second) = dealings u first ++ dealings u second := List.filterMap_append

/-- A dealing with a node is a message to it. -/
theorem mem_dealings {letters : List (NodeId × Message)} :
    msg ∈ dealings u letters ↔ (u, msg) ∈ letters ∧ msg.isDealing = true := by
  rw [dealings, List.mem_filterMap]
  constructor
  · rintro ⟨⟨dest, msg'⟩, hmem, heq⟩
    split at heq
    · next hcounts =>
      obtain ⟨rfl, hdealing⟩ := hcounts
      obtain rfl := Option.some.inj heq
      exact ⟨hmem, hdealing⟩
    · cases heq
  · rintro ⟨hmem, hdealing⟩
    exact ⟨(u, msg), hmem, if_pos ⟨rfl, hdealing⟩⟩

/-- Where no message to a node is a dealing, there are none with it. -/
theorem dealings_eq_nil {letters : List (NodeId × Message)}
    (h : ∀ msg, (u, msg) ∈ letters → msg.isDealing = false) : dealings u letters = [] := by
  refine List.eq_nil_iff_forall_not_mem.mpr fun msg hmem => ?_
  obtain ⟨hletter, hdealing⟩ := mem_dealings.mp hmem
  rw [h msg hletter] at hdealing
  cases hdealing

/-- The dealing of a node with which an input comes, if it is one. -/
def Input.dealing? (b : NodeId) : Input → Option Message
  | message source msg _ _ => if source = b ∧ msg.isDealing = true then some msg else none
  | _ => none

/-- An input that is a node's dealing is a message from it. -/
theorem Input.of_dealing {i : Input} (h : i.dealing? b = some msg) :
    msg.isDealing = true ∧ ∃ rssi snr, i = .message b msg rssi snr := by
  cases i with
  | message source msg' rssi snr =>
    rw [dealing?] at h
    split at h
    · next hcounts =>
      obtain ⟨rfl, hdealing⟩ := hcounts
      obtain rfl := Option.some.inj h
      exact ⟨hdealing, rssi, snr, rfl⟩
    · cases h
  | _ => cases h

/-- A message that is no dealing of a node comes from another one or deals with nothing. -/
theorem Input.not_dealing {source : NodeId} {rssi : Int16} {snr : Int8}
    (h : (Input.message source msg rssi snr).dealing? b = none) (hdealing : msg.isDealing = true) :
    source ≠ b := by
  rintro rfl
  rw [dealing?, if_pos ⟨rfl, hdealing⟩] at h
  cases h

end BoothFloor
