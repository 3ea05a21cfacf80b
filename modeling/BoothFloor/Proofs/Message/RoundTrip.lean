import BoothFloor.Proofs.Message.Wire

/-!
# From a message to its frame and back

A message leaves as a frame and comes back in exactly one form: itself, but for what its cap takes off the
text. What follows the frame is not read, and no frame is longer than the longest one that is allowed for.
-/

namespace BoothFloor

namespace Message

/-- Whether the air takes nothing off a message: its text has no NUL and fits the cap of its kind. -/
def Fits : Message → Prop
  | boothInfo _ _ _ description =>
    '\x00' ∉ description.toList ∧ Text.byteSize description ≤ Wire.maxDescription
  | adminMessage text => '\x00' ∉ text.toList ∧ Text.byteSize text ≤ Wire.maxText
  | chat _ text => '\x00' ∉ text.toList ∧ Text.byteSize text ≤ Wire.maxText
  | _ => True

/-- A message arrives in one form only. -/
theorem Arrives.eq {m m₁ m₂ : Message} (h₁ : m.Arrives m₁) (h₂ : m.Arrives m₂) : m₂ = m₁ := by
  cases h₁ with
  | plain hplain => cases h₂ <;> first | rfl | cases hplain
  | boothInfo hcut =>
    cases h₂ with
    | plain hplain => cases hplain
    | boothInfo hcut' => rw [hcut.eq hcut']
  | adminMessage hcut =>
    cases h₂ with
    | plain hplain => cases hplain
    | adminMessage hcut' => rw [hcut.eq hcut']
  | chat hcut =>
    cases h₂ with
    | plain hplain => cases hplain
    | chat hcut' => rw [hcut.eq hcut']

/-- The form in which a message arrives. -/
theorem arrives_iff {m m' : Message} : m.Arrives m' ↔ m' = m.received :=
  ⟨m.arrives_received.eq, fun heq => heq ▸ m.arrives_received⟩

/-- A message arrives as it was written exactly if the air takes nothing off it. -/
theorem arrives_self_iff (m : Message) : m.Arrives m ↔ m.Fits := by
  constructor
  · intro h
    cases h with
    | plain hplain => cases m <;> first | exact trivial | cases hplain
    | boothInfo hcut => exact Text.isCut_self_iff.mp hcut
    | adminMessage hcut => exact Text.isCut_self_iff.mp hcut
    | chat hcut => exact Text.isCut_self_iff.mp hcut
  · intro h
    cases m with
    | boothInfo => exact .boothInfo (Text.isCut_self_iff.mpr h)
    | adminMessage => exact .adminMessage (Text.isCut_self_iff.mpr h)
    | chat => exact .chat (Text.isCut_self_iff.mpr h)
    | _ => exact .plain rfl

end Message

namespace Wire

/-- Every message that a sender of a role can say comes back from its frame in the one form in which it
arrives, whatever follows the frame; that is the message itself exactly if its text has no NUL and fits. -/
theorem decode_encode_cuts {m : Message} {source : Role} (h : m.IsFrom source) :
    ∃ m', (∀ m'', m.Arrives m'' ↔ m'' = m') ∧ (∀ rest, decode (encode m ++ rest) source = .ok m') ∧
      (m' = m ↔ m.Fits) ∧ (encode m).length ≤ maxFrame := by
  have hone (m'' : Message) : m.Arrives m'' ↔ m'' = m.received := by
    constructor
    · exact m.arrives_received.eq
    · rintro rfl
      exact m.arrives_received
  refine ⟨m.received, hone, decode_encode_append h, ?_, length_encode_le m⟩
  rw [← m.arrives_self_iff, hone]
  exact eq_comm

/-- Chat that a host passes on, with a letter of two bytes across its cap. -/
def straddlingChat : Message := .chat (some ⟨7⟩) (String.ofList (List.replicate 99 'a' ++ ['é', 'b']))

theorem decode_encode_cuts_straddlingChat :
    straddlingChat.IsFrom .admin ∧
      decode (encode straddlingChat ++ [0xC3, 0]) .admin =
        .ok (.chat (some ⟨7⟩) (String.ofList (List.replicate 99 'a'))) ∧
      ¬ straddlingChat.Fits := by
  have hfrom : straddlingChat.IsFrom .admin := by
    simp [straddlingChat, Message.IsFrom]
  have hcut : straddlingChat.Arrives (.chat (some ⟨7⟩) (String.ofList (List.replicate 99 'a'))) := by
    have hwired : Text.wired maxText (String.ofList (List.replicate 99 'a' ++ ['é', 'b'])) =
        String.ofList (List.replicate 99 'a') := by
      decide +kernel
    exact .chat (hwired ▸ Text.wired_isCut _ _)
  obtain ⟨m', hone, hread, hfits, -⟩ := decode_encode_cuts hfrom
  have hm' := (hone _).mp hcut
  refine ⟨hfrom, hm' ▸ hread _, fun hself => ?_⟩
  have hsame := hm'.trans (hfits.mpr hself)
  revert hsame
  decide +kernel

end Wire

end BoothFloor
