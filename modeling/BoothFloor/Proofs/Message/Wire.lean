import BoothFloor.Message.Wire
import BoothFloor.Proofs.Text.Cut

/-!
# What a frame says of its message

The first byte of a frame settles the kind of the message that is read from it. Every message that a
sender of a role may send is read from its frame as it was written, but for its text, of which there is
what the cap has left; whatever follows the frame makes no difference.
-/

namespace BoothFloor

/-- The messages that carry no text. -/
def Message.isPlain : Message → Bool
  | boothInfo .. | adminMessage _ | chat .. => false
  | _ => true

/-- The kind of a message without text is none of those that carry text. -/
theorem Message.isPlain_of_kind_eq {m m' : Message} (h : m.kind = m'.kind) : m.isPlain = m'.isPlain := by
  cases m <;> cases m' <;> first | rfl | cases h

/-- Whether a sender of a role can say a message: chat names its sender if a host passes it on, and not
otherwise. -/
def Message.IsFrom (source : Role) : Message → Prop
  | chat sender _ => sender.isSome = true ↔ source = .admin
  | _ => True

/-- The form in which a message arrives: its text is cut to the cap of its kind. -/
def Message.received : Message → Message
  | boothInfo current capacity waiting description =>
    boothInfo current capacity waiting (Text.wired Wire.maxDescription description)
  | adminMessage text => adminMessage (Text.wired Wire.maxText text)
  | chat sender text => chat sender (Text.wired Wire.maxText text)
  | m => m

/-- One message is another one, but for its text, of which it has what is left under the cap. -/
inductive Message.Arrives : Message → Message → Prop
  | plain {m : Message} (h : m.isPlain = true) : Arrives m m
  | boothInfo {current capacity waiting : UInt8} {description cut : String}
      (h : Text.IsCut Wire.maxDescription description cut) :
      Arrives (boothInfo current capacity waiting description) (boothInfo current capacity waiting cut)
  | adminMessage {text cut : String} (h : Text.IsCut Wire.maxText text cut) :
      Arrives (adminMessage text) (adminMessage cut)
  | chat {sender : Option NodeId} {text cut : String} (h : Text.IsCut Wire.maxText text cut) :
      Arrives (chat sender text) (chat sender cut)

/-- Anyone can say a message without text. -/
theorem Message.isFrom_of_isPlain {m : Message} (source : Role) (h : m.isPlain = true) : m.IsFrom source := by
  cases m <;> first | exact trivial | cases h

/-- A message without text arrives as it is. -/
theorem Message.received_of_isPlain {m : Message} (h : m.isPlain = true) : m.received = m := by
  cases m <;> first | rfl | cases h

/-- A message arrives but for what the cap takes off its text. -/
theorem Message.arrives_received (m : Message) : m.Arrives m.received := by
  cases m with
  | boothInfo => exact .boothInfo (Text.wired_isCut _ _)
  | adminMessage => exact .adminMessage (Text.wired_isCut _ _)
  | chat => exact .chat (Text.wired_isCut _ _)
  | _ => exact .plain rfl

namespace Wire

/-- A mapped reading succeeds only where the reading does. -/
theorem exists_of_map_eq_ok {α β : Type} {f : α → β} {e : Except FrameError α} {b : β}
    (h : e.map f = .ok b) : ∃ a, e = .ok a ∧ f a = b := by
  cases e with
  | error e => cases h
  | ok a => exact ⟨a, rfl, Except.ok.inj h⟩

/-- A reading that goes on from another one succeeds only where both do. -/
theorem exists_of_bind_eq_ok {α β : Type} {f : α → Except FrameError β} {e : Except FrameError α} {b : β}
    (h : e >>= f = .ok b) : ∃ a, e = .ok a ∧ f a = .ok b := by
  cases e with
  | error e => cases h
  | ok a => exact ⟨a, rfl, h⟩

/-- The message read from the fields of a kind is of that kind. -/
theorem kind_of_decodePayload {source : Role} {kind : FrameKind} {body : List UInt8} {m : Message}
    (h : decodePayload source kind body = .ok m) : m.kind = kind := by
  cases kind with
  | boothInfo | userResponse | exitResponse | adminMessage =>
    simp only [decodePayload] at h
    split at h
    · obtain ⟨field, _, rfl⟩ := exists_of_map_eq_ok h
      rfl
    · cases h
  | registerResponse =>
    simp only [decodePayload] at h
    split at h
    · obtain ⟨reason, _, h⟩ := exists_of_bind_eq_ok h
      obtain ⟨success, _, h⟩ := exists_of_bind_eq_ok h
      cases h
      rfl
    · cases h
  | chatMessage =>
    simp only [decodePayload] at h
    split at h
    · obtain ⟨text, _, rfl⟩ := exists_of_map_eq_ok h
      rfl
    · cases h
    · obtain ⟨text, _, rfl⟩ := exists_of_map_eq_ok h
      rfl
    · cases h
  | boothAnnounce | queueInfo | queueUpdate =>
    simp only [decodePayload] at h
    split at h
    · cases h
      rfl
    · cases h
  | userInfoRequest | connectResponse | queueJoinRequest | queueReadyAck => cases h
  | _ =>
    cases h
    rfl

/-- The message read from the frame of another one is of the same kind. -/
theorem kind_of_decode_encode {m m' : Message} {source : Role} (h : decode (encode m) source = .ok m') :
    m'.kind = m.kind := by
  simp only [decode, encode, FrameKind.ofTag?_tag] at h
  exact kind_of_decodePayload h

/-- A flag is read as it was written. -/
theorem readFlag_flagByte (kind : FrameKind) (field : String) (b : Bool) :
    readFlag kind field (flagByte b) = .ok b := by
  cases b <;> rfl

/-- A reason is read as it was written. -/
theorem readReason_code (kind : FrameKind) (r : RegisterReason) : readReason kind r.code = .ok r := by
  rw [readReason, RegisterReason.ofCode?_code]

/-- A text on the air is what is left of it under the cap, closed by a NUL. -/
theorem textBytes_eq (max : Nat) (text : String) :
    textBytes max text = Utf8.encode (Text.wired max text).toList ++ [0] := by
  rw [textBytes, Text.wired, String.toList_ofList]

/-- A text on the air takes one byte more than its cap at most. -/
theorem length_textBytes_le (max : Nat) (text : String) : (textBytes max text).length ≤ max + 1 := by
  have hfits : Utf8.size (Text.wired max text).toList ≤ max := (Text.wired_isCut max text).fits
  rw [textBytes_eq, List.length_append, Utf8.length_encode]
  exact Nat.add_le_add_right hfits 1

/-- A text on the air has a first byte. -/
theorem exists_cons_of_textBytes (max : Nat) (text : String) (rest : List UInt8) :
    ∃ first bytes, textBytes max text ++ rest = first :: bytes :=
  List.exists_cons_of_ne_nil (by simp [textBytes])

/-- A text without a NUL ends where the first one is. -/
theorem takeWhile_ne_zero {body : List UInt8} (hopen : 0 ∉ body) (behind : List UInt8) :
    (body ++ 0 :: behind).takeWhile (· ≠ 0) = body := by
  have hbody : ∀ b ∈ body, decide (b ≠ 0) = true :=
    fun b hb => decide_eq_true fun heq => hopen (heq ▸ hb)
  rw [List.takeWhile_append_of_pos hbody]
  simp

/-- A text that is closed within its cap is read, whatever follows its NUL. -/
theorem readText_of_closed (kind : FrameKind) {cap : Nat} {body : List UInt8} (hopen : 0 ∉ body)
    (hcap : body.length ≤ cap) (behind : List UInt8) :
    readText kind cap (body ++ 0 :: behind) = .ok (String.ofList (Utf8.decode body)) := by
  have hclosed : body.length ≠ (body ++ 0 :: behind).length := by simp
  simp only [readText, takeWhile_ne_zero hopen]
  rw [if_neg hclosed, if_neg (Nat.not_lt.mpr hcap)]

/-- A text is read as what is left of it under the cap, whatever follows its NUL. -/
theorem readText_textBytes (kind : FrameKind) (max : Nat) (text : String) (rest : List UInt8) :
    readText kind max (textBytes max text ++ rest) = .ok (Text.wired max text) := by
  have hfits : Utf8.size (Text.wired max text).toList ≤ max := (Text.wired_isCut max text).fits
  have hopen : 0 ∉ Utf8.encode (Text.wired max text).toList :=
    Utf8.zero_not_mem_encode (Text.nul_not_mem_wired max text)
  rw [← Utf8.length_encode] at hfits
  rw [textBytes_eq, List.append_assoc, List.singleton_append, readText_of_closed kind hopen hfits,
    Utf8.decode_encode, String.ofList_toList]

/-- A message is read from its frame, its text cut to the cap, whatever follows the frame. -/
theorem decode_encode_append {m : Message} {source : Role} (h : m.IsFrom source) (rest : List UInt8) :
    decode (encode m ++ rest) source = .ok m.received := by
  simp only [decode, encode, List.cons_append, FrameKind.ofTag?_tag]
  cases m with
  | userResponse | registerResponse | exitResponse =>
    simp only [Message.kind, payload, decodePayload, List.cons_append, readFlag_flagByte, readReason_code]
    rfl
  | boothInfo current capacity waiting description =>
    have htext := readText_textBytes .boothInfo maxDescription description rest
    obtain ⟨first, bytes, hcons⟩ := exists_cons_of_textBytes maxDescription description rest
    simp only [Message.kind, payload, decodePayload, List.cons_append, hcons] at htext ⊢
    rw [htext]
    rfl
  | adminMessage text =>
    have htext := readText_textBytes .adminMessage maxText text rest
    obtain ⟨first, bytes, hcons⟩ := exists_cons_of_textBytes maxText text rest
    simp only [Message.kind, payload, decodePayload, hcons] at htext ⊢
    rw [htext]
    rfl
  | chat sender text =>
    have htext := readText_textBytes .chatMessage maxText text rest
    obtain ⟨first, bytes, hcons⟩ := exists_cons_of_textBytes maxText text rest
    -- the frame of chat has room for the sender exactly if a host passes it on
    cases sender <;> cases source <;> simp [Message.IsFrom] at h
    all_goals
      simp only [Message.kind, payload, decodePayload, List.cons_append, hcons] at htext ⊢
      rw [htext]
      rfl
  | _ => rfl

/-- A frame is no longer than relayed chat with a full text. -/
theorem length_encode_le (m : Message) : (encode m).length ≤ maxFrame := by
  have htext := length_textBytes_le
  cases m with
  | boothInfo current capacity waiting description =>
    have := htext maxDescription description
    simp only [encode, payload, List.length_cons, maxFrame, maxDescription, maxText] at this ⊢
    omega
  | adminMessage text =>
    have := htext maxText text
    simp only [encode, payload, List.length_cons, maxFrame] at this ⊢
    omega
  | chat sender text =>
    have := htext maxText text
    cases sender <;> simp only [encode, payload, List.length_cons, maxFrame] at this ⊢ <;> omega
  | _ => simp [encode, payload, maxFrame, maxText]

/-- A message without text is read as it was written. -/
theorem decode_encode_of_isPlain {m : Message} (source : Role) (h : m.isPlain = true) :
    decode (encode m) source = .ok m := by
  have hread := decode_encode_append (Message.isFrom_of_isPlain source h) []
  rwa [List.append_nil, Message.received_of_isPlain h] at hread

/-- A message without text is read only from its own frame. -/
theorem eq_of_decode_encode {m m' : Message} {source : Role} (h : decode (encode m) source = .ok m')
    (hplain : m'.isPlain = true) : m = m' := by
  have hm : m.isPlain = true := by
    rw [← hplain]
    exact (Message.isPlain_of_kind_eq (kind_of_decode_encode h)).symm
  rw [decode_encode_of_isPlain source hm] at h
  exact Except.ok.inj h

end Wire

end BoothFloor
