import BoothFloor.Proofs.Message.Wire

/-!
# The grammar of frames

After its tag a frame has the fields of its kind, and behind them there may be anything. `IsFrame` says so
without the reader: a kind in use has a row of fields, and each field has its own bytes. The reader accepts
exactly these frames. No field but a spare byte can be taken for the beginning of a longer one, so a frame
is made up of its fields in one way only, and of a message as it is written no part can be left out.
-/

namespace BoothFloor

namespace Wire

/-- What can stand behind the tag of a frame. -/
inductive Field where
  /-- A byte that is at most `top`. -/
  | byte (top : UInt8)
  /-- A text of at most `cap` bytes and the NUL behind it. -/
  | text (cap : Nat)
  /-- A byte without a meaning, which may be missing. -/
  | spare
  deriving DecidableEq

/-- A byte of any value. -/
def Field.any : Field := .byte 255

/-- A zero or a one. -/
def Field.flag : Field := .byte 1

/-- The code of one of the three reasons. -/
def Field.reason : Field := .byte 2

/-- The fields of a kind of frame, if the kind is in use. -/
def layout (source : Role) : FrameKind → Option (List Field)
  | .boothScan | .connectRequest | .registerRequest | .queueLeave | .exitRequest => some []
  | .boothAnnounce => some [.any, .any, .any, .any]
  | .boothInfo => some [.any, .any, .any, .text maxDescription]
  | .userResponse | .exitResponse => some [.flag]
  | .registerResponse => some [.flag, .reason]
  | .queueInfo | .queueUpdate => some [.any, .any]
  | .queueReady | .timeoutAlert => some [.spare]
  | .adminMessage => some [.text maxText]
  | .chatMessage =>
    match source with
    | .admin => some [.any, .text maxText]
    | .user => some [.text maxText]
  | .userInfoRequest | .connectResponse | .queueJoinRequest | .queueReadyAck => none

/-- The bytes of some fields, and the bytes of the texts among them without their NULs. -/
inductive Spells : List Field → List UInt8 → List (List UInt8) → Prop
  | nil : Spells [] [] []
  | byte {fields bytes texts} {top b : UInt8} (htop : b ≤ top) (rest : Spells fields bytes texts) :
      Spells (.byte top :: fields) (b :: bytes) texts
  | text {fields bytes texts} {cap : Nat} {body : List UInt8} (hopen : 0 ∉ body) (hcap : body.length ≤ cap)
      (rest : Spells fields bytes texts) : Spells (.text cap :: fields) (body ++ 0 :: bytes) (body :: texts)
  | missing {fields bytes texts} (rest : Spells fields bytes texts) : Spells (.spare :: fields) bytes texts
  | spare {fields bytes texts} (b : UInt8) (rest : Spells fields bytes texts) :
      Spells (.spare :: fields) (b :: bytes) texts

/-- Any byte spells the field for one. -/
theorem Spells.any {fields : List Field} {bytes : List UInt8} {texts : List (List UInt8)} (b : UInt8)
    (rest : Spells fields bytes texts) : Spells (.any :: fields) (b :: bytes) texts :=
  .byte (UInt8.le_iff_toNat_le.mpr (Nat.le_of_lt_succ b.toNat_lt)) rest

/-- A frame from a node of role `source`: the tag of a kind in use, the fields of that kind, and anything
behind them. -/
inductive IsFrame (source : Role) : List UInt8 → List (List UInt8) → Prop
  | intro {kind : FrameKind} {fields : List Field} {bytes : List UInt8} {texts : List (List UInt8)}
      (hlayout : layout source kind = some fields) (hspells : Spells fields bytes texts)
      (behind : List UInt8) : IsFrame source (kind.tag :: (bytes ++ behind)) texts

/-- A NUL-terminated text is found in one way only. -/
theorem text_append_inj {first second behind behind' : List UInt8} (h : 0 ∉ first) (h' : 0 ∉ second)
    (heq : first ++ 0 :: behind = second ++ 0 :: behind') : first = second ∧ behind = behind' := by
  obtain rfl : first = second := by rw [← takeWhile_ne_zero h behind, heq, takeWhile_ne_zero h']
  exact ⟨rfl, (List.cons.inj (List.append_cancel_left heq)).2⟩

/-- Fields without a spare byte are found in one way only, whatever is behind them. -/
theorem Spells.append_inj {fields : List Field} {first second behind behind' : List UInt8}
    {texts texts' : List (List UInt8)} (h : Spells fields first texts) (h' : Spells fields second texts')
    (hspare : .spare ∉ fields) (heq : first ++ behind = second ++ behind') :
    first = second ∧ texts = texts' := by
  induction h generalizing second texts' with
  | nil => cases h' with | nil => exact ⟨rfl, rfl⟩
  | byte _ _ ih =>
    cases h' with
    | byte _ hrest =>
      rw [List.cons_append, List.cons_append, List.cons.injEq] at heq
      obtain ⟨rfl, rfl⟩ := ih hrest (List.not_mem_of_not_mem_cons hspare) heq.2
      exact ⟨congrArg (· :: _) heq.1, rfl⟩
  | text hopen _ _ ih =>
    cases h' with
    | text hopen' _ hrest =>
      rw [List.append_assoc, List.append_assoc, List.cons_append, List.cons_append] at heq
      obtain ⟨rfl, hbehind⟩ := text_append_inj hopen hopen' heq
      obtain ⟨rfl, rfl⟩ := ih hrest (List.not_mem_of_not_mem_cons hspare) hbehind
      exact ⟨rfl, rfl⟩
  | missing | spare => exact absurd List.mem_cons_self hspare

/-- Bytes that begin with a text closed within its cap are not empty, and the text is read. -/
theorem exists_readText (kind : FrameKind) {cap : Nat} {body : List UInt8} (hopen : 0 ∉ body)
    (hcap : body.length ≤ cap) (behind : List UInt8) :
    ∃ first rest, body ++ 0 :: behind = first :: rest ∧
      readText kind cap (first :: rest) = .ok (String.ofList (Utf8.decode body)) := by
  obtain ⟨first, rest, hcons⟩ := List.exists_cons_of_ne_nil (l := body ++ 0 :: behind) (by simp)
  exact ⟨first, rest, hcons, hcons ▸ readText_of_closed kind hopen hcap behind⟩

/-- Only a text that is closed within its cap is read. -/
theorem closed_of_readText {kind : FrameKind} {cap : Nat} {bytes : List UInt8} {text : String}
    (h : readText kind cap bytes = .ok text) :
    ∃ body behind, bytes = body ++ [0] ++ behind ∧ 0 ∉ body ∧ body.length ≤ cap := by
  unfold readText at h
  dsimp only at h
  split at h
  · cases h
  · next hclosed =>
    split at h
    · cases h
    · next hcap =>
      have hmem : 0 ∈ bytes := by
        by_contra hopen
        have hall : bytes.takeWhile (· ≠ 0) = bytes :=
          List.takeWhile_eq_self_iff.mpr fun b hb => decide_eq_true fun heq => hopen (heq ▸ hb)
        exact hclosed (congrArg List.length hall)
      obtain ⟨body, behind, rfl, hopen⟩ := List.eq_append_cons_of_mem hmem
      rw [takeWhile_ne_zero hopen] at hcap
      exact ⟨body, behind, List.append_cons body 0 behind, hopen, Nat.le_of_not_lt hcap⟩

/-- A zero or a one is the byte of a flag. -/
theorem exists_flagByte {b : UInt8} (h : b ≤ 1) : ∃ flag, flagByte flag = b := by
  rw [UInt8.le_iff_toNat_le] at h
  change b.toNat ≤ 1 at h
  rcases Nat.le_one_iff_eq_zero_or_eq_one.mp h with hzero | hone
  · exact ⟨false, UInt8.toNat_inj.mp hzero.symm⟩
  · exact ⟨true, UInt8.toNat_inj.mp hone.symm⟩

/-- A zero, a one or a two is the code of a reason. -/
theorem exists_code {b : UInt8} (h : b ≤ 2) : ∃ reason : RegisterReason, reason.code = b := by
  rw [UInt8.le_iff_toNat_le] at h
  change b.toNat ≤ 2 at h
  have hcases : b.toNat = 0 ∨ b.toNat = 1 ∨ b.toNat = 2 := by omega
  rcases hcases with hzero | hone | htwo
  · exact ⟨.success, UInt8.toNat_inj.mp hzero.symm⟩
  · exact ⟨.alreadyUsed, UInt8.toNat_inj.mp hone.symm⟩
  · exact ⟨.fullWaiting, UInt8.toNat_inj.mp htwo.symm⟩

/-- Only a zero or a one is read as a flag. -/
theorem le_of_readFlag {kind : FrameKind} {field : String} {b : UInt8} {flag : Bool}
    (h : readFlag kind field b = .ok flag) : b ≤ 1 := by
  unfold readFlag at h
  split at h
  · next hzero =>
    rw [hzero]
    decide
  split at h
  · next hone => exact Std.le_of_eq hone
  · cases h

/-- Only the code of a reason is read as one. -/
theorem le_of_readReason {kind : FrameKind} {b : UInt8} {reason : RegisterReason}
    (h : readReason kind b = .ok reason) : b ≤ 2 := by
  unfold readReason at h
  split at h
  · next r hcode =>
    have hb : r.code = b := by simpa using List.find?_some hcode
    rw [← hb]
    cases r <;> decide
  · cases h

/-- A text in UTF-8 that fits its cap and has no NUL is written as it was read. -/
theorem textBytes_decode {cap : Nat} {body : List UInt8} (hopen : 0 ∉ body) (hcap : body.length ≤ cap)
    (hwell : Utf8.WellFormed body) : textBytes cap (String.ofList (Utf8.decode body)) = body ++ [0] := by
  obtain ⟨cs, rfl⟩ := Utf8.wellFormed_iff.mp hwell
  have hnul : '\x00' ∉ cs := fun hmem => hopen (List.mem_flatMap.mpr ⟨_, hmem, List.mem_cons_self⟩)
  have hfits : Utf8.size cs ≤ cap := by rwa [Utf8.length_encode] at hcap
  have hself : Text.IsCut cap (String.ofList cs) (String.ofList cs) := by
    rw [Text.isCut_self_iff, Text.byteSize, String.toList_ofList]
    exact ⟨hnul, hfits⟩
  have hwhole : Text.wired cap (String.ofList cs) = String.ofList cs := hself.eq (Text.wired_isCut cap _)
  rw [textBytes_eq, Utf8.decode_encode, hwhole, String.toList_ofList]

/-- What spells the layout of a kind is read as a message that a node of the role can say; if its texts are
well-formed, it is what the message is written as, but for a spare byte. -/
theorem decodePayload_of_spells {source : Role} {kind : FrameKind} {fields : List Field} {bytes : List UInt8}
    {texts : List (List UInt8)} (hlayout : layout source kind = some fields)
    (h : Spells fields bytes texts) (behind : List UInt8) :
    ∃ m, decodePayload source kind (bytes ++ behind) = .ok m ∧ m.IsFrom source ∧
      (Field.spare ∉ fields → (∀ t ∈ texts, Utf8.WellFormed t) → payload m = bytes) := by
  cases kind with
  | userInfoRequest | connectResponse | queueJoinRequest | queueReadyAck => cases hlayout
  | boothScan | connectRequest | registerRequest | queueLeave | exitRequest =>
    obtain rfl := Option.some.inj hlayout
    cases h
    exact ⟨_, rfl, trivial, fun _ _ => rfl⟩
  | queueReady | timeoutAlert =>
    obtain rfl := Option.some.inj hlayout
    exact ⟨_, rfl, trivial, fun hspare => absurd List.mem_cons_self hspare⟩
  | boothAnnounce =>
    obtain rfl := Option.some.inj hlayout
    cases h with | byte _ h =>
    cases h with | byte _ h =>
    cases h with | byte _ h =>
    cases h with | byte _ h =>
    cases h
    exact ⟨_, rfl, trivial, fun _ _ => rfl⟩
  | queueInfo | queueUpdate =>
    obtain rfl := Option.some.inj hlayout
    cases h with | byte _ h =>
    cases h with | byte _ h =>
    cases h
    exact ⟨_, rfl, trivial, fun _ _ => rfl⟩
  | userResponse | exitResponse =>
    obtain rfl := Option.some.inj hlayout
    cases h with | byte hflag h =>
    cases h
    obtain ⟨flag, rfl⟩ := exists_flagByte hflag
    simp only [decodePayload, List.cons_append, readFlag_flagByte]
    exact ⟨_, rfl, trivial, fun _ _ => rfl⟩
  | registerResponse =>
    obtain rfl := Option.some.inj hlayout
    cases h with | byte hflag h =>
    cases h with | byte hreason h =>
    cases h
    obtain ⟨flag, rfl⟩ := exists_flagByte hflag
    obtain ⟨reason, rfl⟩ := exists_code hreason
    simp only [decodePayload, List.cons_append, readFlag_flagByte, readReason_code]
    exact ⟨_, rfl, trivial, fun _ _ => rfl⟩
  | boothInfo =>
    obtain rfl := Option.some.inj hlayout
    cases h with | byte _ h =>
    cases h with | byte _ h =>
    cases h with | byte _ h =>
    cases h with | text hopen hcap h =>
    cases h
    obtain ⟨first, rest, hcons, htext⟩ := exists_readText .boothInfo hopen hcap behind
    simp only [decodePayload, List.cons_append, List.append_assoc, List.nil_append, hcons, htext]
    refine ⟨_, rfl, trivial, fun _ hwell => ?_⟩
    rw [payload, textBytes_decode hopen hcap (hwell _ List.mem_cons_self)]
  | adminMessage =>
    obtain rfl := Option.some.inj hlayout
    cases h with | text hopen hcap h =>
    cases h
    obtain ⟨first, rest, hcons, htext⟩ := exists_readText .adminMessage hopen hcap behind
    simp only [decodePayload, List.cons_append, List.append_assoc, List.nil_append, hcons, htext]
    refine ⟨_, rfl, trivial, fun _ hwell => ?_⟩
    rw [payload, textBytes_decode hopen hcap (hwell _ List.mem_cons_self)]
  | chatMessage =>
    cases source with
    | admin =>
      obtain rfl := Option.some.inj hlayout
      cases h with | byte _ h =>
      cases h with | text hopen hcap h =>
      cases h
      obtain ⟨first, rest, hcons, htext⟩ := exists_readText .chatMessage hopen hcap behind
      simp only [decodePayload, List.cons_append, List.append_assoc, List.nil_append, hcons, htext]
      refine ⟨_, rfl, by simp [Message.IsFrom], fun _ hwell => ?_⟩
      rw [payload, textBytes_decode hopen hcap (hwell _ List.mem_cons_self)]
    | user =>
      obtain rfl := Option.some.inj hlayout
      cases h with | text hopen hcap h =>
      cases h
      obtain ⟨first, rest, hcons, htext⟩ := exists_readText .chatMessage hopen hcap behind
      simp only [decodePayload, List.cons_append, List.append_assoc, List.nil_append, hcons, htext]
      refine ⟨_, rfl, by simp [Message.IsFrom], fun _ hwell => ?_⟩
      rw [payload, textBytes_decode hopen hcap (hwell _ List.mem_cons_self)]

/-- Only what spells the layout of a kind is read. -/
theorem spells_of_decodePayload {source : Role} {kind : FrameKind} {body : List UInt8} {m : Message}
    (h : decodePayload source kind body = .ok m) :
    ∃ fields bytes texts behind, layout source kind = some fields ∧ Spells fields bytes texts ∧
      body = bytes ++ behind := by
  cases kind with
  | userInfoRequest | connectResponse | queueJoinRequest | queueReadyAck => cases h
  | boothScan | connectRequest | registerRequest | queueLeave | exitRequest =>
    exact ⟨_, _, _, body, rfl, .nil, rfl⟩
  | queueReady | timeoutAlert => exact ⟨_, _, _, body, rfl, .missing .nil, rfl⟩
  | boothAnnounce =>
    simp only [decodePayload] at h
    split at h
    · next id current capacity waiting rest =>
      exact ⟨_, _, _, rest, rfl, .any _ (.any _ (.any _ (.any _ .nil))), rfl⟩
    · cases h
  | queueInfo | queueUpdate =>
    simp only [decodePayload] at h
    split at h
    · exact ⟨_, _, _, _, rfl, .any _ (.any _ .nil), rfl⟩
    · cases h
  | userResponse | exitResponse =>
    simp only [decodePayload] at h
    split at h
    · obtain ⟨flag, hflag, -⟩ := exists_of_map_eq_ok h
      exact ⟨_, _, _, _, rfl, .byte (le_of_readFlag hflag) .nil, rfl⟩
    · cases h
  | registerResponse =>
    simp only [decodePayload] at h
    split at h
    · obtain ⟨reason, hreason, h⟩ := exists_of_bind_eq_ok h
      obtain ⟨flag, hflag, -⟩ := exists_of_bind_eq_ok h
      exact ⟨_, _, _, _, rfl, .byte (le_of_readFlag hflag) (.byte (le_of_readReason hreason) .nil), rfl⟩
    · cases h
  | boothInfo =>
    simp only [decodePayload] at h
    split at h
    · obtain ⟨text, htext, -⟩ := exists_of_map_eq_ok h
      obtain ⟨body, behind, hbytes, hopen, hcap⟩ := closed_of_readText htext
      rw [hbytes]
      exact ⟨_, _, _, behind, rfl, .any _ (.any _ (.any _ (.text hopen hcap .nil))), rfl⟩
    · cases h
  | adminMessage =>
    simp only [decodePayload] at h
    split at h
    · obtain ⟨text, htext, -⟩ := exists_of_map_eq_ok h
      obtain ⟨body, behind, hbytes, hopen, hcap⟩ := closed_of_readText htext
      rw [hbytes]
      exact ⟨_, _, _, behind, rfl, .text hopen hcap .nil, rfl⟩
    · cases h
  | chatMessage =>
    simp only [decodePayload] at h
    split at h
    · obtain ⟨text, htext, -⟩ := exists_of_map_eq_ok h
      obtain ⟨body, behind, hbytes, hopen, hcap⟩ := closed_of_readText htext
      rw [hbytes]
      exact ⟨_, _, _, behind, rfl, .any _ (.text hopen hcap .nil), rfl⟩
    · cases h
    · obtain ⟨text, htext, -⟩ := exists_of_map_eq_ok h
      obtain ⟨body, behind, hbytes, hopen, hcap⟩ := closed_of_readText htext
      rw [hbytes]
      exact ⟨_, _, _, behind, rfl, .text hopen hcap .nil, rfl⟩
    · cases h

/-- A text as it is written spells the field for it. -/
theorem spells_textBytes (cap : Nat) (text : String) :
    Spells [.text cap] (textBytes cap text) [Utf8.encode (Text.wired cap text).toList] := by
  have hopen : 0 ∉ Utf8.encode (Text.wired cap text).toList :=
    Utf8.zero_not_mem_encode (Text.nul_not_mem_wired cap text)
  have hfits : Utf8.size (Text.wired cap text).toList ≤ cap := (Text.wired_isCut cap text).fits
  rw [textBytes_eq]
  exact .text hopen (by rwa [Utf8.length_encode]) .nil

/-- A message that a node of a role can say is written as the layout of its kind. -/
theorem payload_spells {source : Role} {m : Message} (h : m.IsFrom source) :
    ∃ fields texts, layout source m.kind = some fields ∧ Spells fields (payload m) texts := by
  have hflag (flag : Bool) : flagByte flag ≤ 1 := by cases flag <;> decide
  have hreason (reason : RegisterReason) : reason.code ≤ 2 := by cases reason <;> decide
  cases m with
  | boothScan | connectRequest | registerRequest | queueLeave | exitRequest => exact ⟨_, _, rfl, .nil⟩
  | boothAnnounce => exact ⟨_, _, rfl, .any _ (.any _ (.any _ (.any _ .nil)))⟩
  | queueInfo | queueUpdate => exact ⟨_, _, rfl, .any _ (.any _ .nil)⟩
  | userResponse | exitResponse => exact ⟨_, _, rfl, .byte (hflag _) .nil⟩
  | registerResponse => exact ⟨_, _, rfl, .byte (hflag _) (.byte (hreason _) .nil)⟩
  | queueReady | timeoutAlert => exact ⟨_, _, rfl, .spare 0 .nil⟩
  | boothInfo => exact ⟨_, _, rfl, .any _ (.any _ (.any _ (spells_textBytes _ _)))⟩
  | adminMessage => exact ⟨_, _, rfl, spells_textBytes _ _⟩
  | chat sender text =>
    -- the layout of chat has a place for the sender exactly if a host passes it on
    cases sender <;> cases source <;> simp [Message.IsFrom] at h
    · exact ⟨_, _, rfl, spells_textBytes _ _⟩
    · exact ⟨_, _, rfl, .any _ (spells_textBytes _ _)⟩

/-- Only an offer and an alert have a spare byte. -/
theorem kind_of_spare {source : Role} {kind : FrameKind} {fields : List Field}
    (hlayout : layout source kind = some fields) (hspare : .spare ∈ fields) :
    kind = .queueReady ∨ kind = .timeoutAlert := by
  cases kind with
  | queueReady => exact .inl rfl
  | timeoutAlert => exact .inr rfl
  | userInfoRequest | connectResponse | queueJoinRequest | queueReadyAck => cases hlayout
  | chatMessage => cases source <;> cases hlayout <;> simp [Field.any] at hspare
  | _ =>
    cases hlayout
    simp [Field.any, Field.flag, Field.reason] at hspare

/-- The messages that are written with a spare byte. -/
theorem kind_eq_spare_iff {m : Message} :
    m.kind = .queueReady ∨ m.kind = .timeoutAlert ↔ m = .queueReady ∨ m = .timeoutAlert := by
  cases m <;> simp [Message.kind]

/-- The tag of a frame settles the kind of which its fields are read. -/
theorem decode_cons (kind : FrameKind) (body : List UInt8) (source : Role) :
    decode (kind.tag :: body) source = decodePayload source kind body := by
  rw [decode, FrameKind.ofTag?_tag]

/-- Every frame is read, as a message that a node of the role can say; the frame begins with what that is
written as if its texts are well-formed, but for a spare byte. -/
theorem decode_of_isFrame {source : Role} {f : List UInt8} {texts : List (List UInt8)}
    (h : IsFrame source f texts) :
    ∃ m, decode f source = .ok m ∧ m.IsFrom source ∧ [m.kind.tag] <+: f ∧
      ((∀ t ∈ texts, Utf8.WellFormed t) → ¬ (m = .queueReady ∨ m = .timeoutAlert) → encode m <+: f) := by
  cases h with
  | intro hlayout hspells behind =>
    obtain ⟨m, hread, hfrom, hwritten⟩ := decodePayload_of_spells hlayout hspells behind
    obtain rfl := kind_of_decodePayload hread
    refine ⟨m, (decode_cons _ _ _).trans hread, hfrom, ⟨_, rfl⟩, fun hwell hother => ?_⟩
    have hspare : Field.spare ∉ _ := fun hmem => hother (kind_eq_spare_iff.mp (kind_of_spare hlayout hmem))
    rw [encode, hwritten hspare hwell]
    exact ⟨behind, rfl⟩

/-- Nothing but a frame is read. -/
theorem isFrame_of_decode {source : Role} {f : List UInt8} {m : Message} (h : decode f source = .ok m) :
    ∃ body fields bytes texts behind, f = m.kind.tag :: body ∧ layout source m.kind = some fields ∧
      Spells fields bytes texts ∧ body = bytes ++ behind := by
  cases f with
  | nil => cases h
  | cons tag body =>
    rw [decode] at h
    cases hkind : FrameKind.ofTag? tag with
    | none => simp [hkind] at h
    | some kind =>
      simp only [hkind] at h
      obtain ⟨fields, bytes, texts, behind, hlayout, hspells, rfl⟩ := spells_of_decodePayload h
      obtain rfl := kind_of_decodePayload h
      exact ⟨_, fields, bytes, texts, behind, by rw [FrameKind.tag_of_ofTag? hkind], hlayout, hspells, rfl⟩

/-- Of a message as it is written no part can be left out but the spare byte. -/
theorem decode_of_prefix {source : Role} {m : Message} (hfrom : m.IsFrom source) {part : List UInt8}
    (hpart : part <+: encode m) (hproper : part ≠ encode m) :
    (∃ m', decode part source = .ok m') ↔ (m = .queueReady ∨ m = .timeoutAlert) ∧ part = [m.kind.tag] := by
  constructor
  · rintro ⟨m', hread⟩
    obtain ⟨body, fields, bytes, texts, behind, rfl, hlayout, hspells, rfl⟩ := isFrame_of_decode hread
    obtain ⟨missing, hmissing⟩ := hpart
    rw [encode, List.cons_append, List.cons.injEq] at hmissing
    obtain ⟨htag, hpayload⟩ := hmissing
    have hkind : m'.kind = m.kind := by
      have hread := congrArg FrameKind.ofTag? htag
      rwa [FrameKind.ofTag?_tag, FrameKind.ofTag?_tag, Option.some.injEq] at hread
    obtain ⟨fields', texts', hlayout', hspells'⟩ := payload_spells hfrom
    obtain rfl : fields = fields' := by rwa [hkind, hlayout', Option.some.injEq, eq_comm] at hlayout
    by_cases hspare : .spare ∈ fields
    · have hm := kind_eq_spare_iff.mp (kind_of_spare hlayout' hspare)
      have hzero : payload m = [0] := by rcases hm with rfl | rfl <;> rfl
      refine ⟨hm, ?_⟩
      rw [hkind] at hproper ⊢
      rw [hzero, List.append_eq_singleton_iff] at hpayload
      rcases hpayload with ⟨hnone, -⟩ | ⟨hall, -⟩
      · rw [hnone]
      · exact absurd (by rw [hall, encode, hzero]) hproper
    · -- the fields end where those of the message do, so nothing is missing
      rw [List.append_assoc, ← List.append_nil (payload m)] at hpayload
      obtain ⟨rfl, -⟩ := hspells.append_inj hspells' hspare hpayload
      obtain ⟨rfl, -⟩ := List.append_eq_nil_iff.mp (List.append_cancel_left hpayload)
      exact absurd (by rw [encode, hkind, List.append_nil]) hproper
  · rintro ⟨rfl | rfl, rfl⟩
    · exact ⟨.queueReady, rfl⟩
    · exact ⟨.timeoutAlert, rfl⟩

/-- A frame is read exactly if it begins with the tag of a kind in use and the fields of that kind. If its
texts are well-formed, it begins with the very bytes that the message is written as, and those are read as
the message; only of an offer and an alert the tag is enough. No part of those bytes is read, with the same
exception. -/
theorem decode_accepts_frames (f : List UInt8) (source : Role) :
    ((∃ m, decode f source = .ok m) ↔ ∃ texts, IsFrame source f texts) ∧
      ∀ m, decode f source = .ok m →
        (∀ texts, IsFrame source f texts → (∀ t ∈ texts, Utf8.WellFormed t) →
          decode (encode m) source = .ok m ∧
            if m = .queueReady ∨ m = .timeoutAlert then [m.kind.tag] <+: f else encode m <+: f) ∧
        ∀ part, part <+: encode m → part ≠ encode m →
          ((∃ m', decode part source = .ok m') ↔
            (m = .queueReady ∨ m = .timeoutAlert) ∧ part = [m.kind.tag]) := by
  have hframe {m : Message} (hread : decode f source = .ok m) : ∃ texts, IsFrame source f texts := by
    obtain ⟨body, fields, bytes, texts, behind, rfl, hlayout, hspells, rfl⟩ := isFrame_of_decode hread
    exact ⟨texts, .intro hlayout hspells behind⟩
  have hread_of {m : Message} (hread : decode f source = .ok m) {texts : List (List UInt8)}
      (h : IsFrame source f texts) : m.IsFrom source ∧ [m.kind.tag] <+: f ∧
        ((∀ t ∈ texts, Utf8.WellFormed t) → ¬ (m = .queueReady ∨ m = .timeoutAlert) → encode m <+: f) := by
    obtain ⟨m', hread', hrest⟩ := decode_of_isFrame h
    obtain rfl := Except.ok.inj (hread.symm.trans hread')
    exact hrest
  refine ⟨⟨fun ⟨m, hread⟩ => hframe hread, ?_⟩, fun m hread => ⟨fun texts h hwell => ?_, fun part => ?_⟩⟩
  · rintro ⟨texts, h⟩
    obtain ⟨m, hread, -⟩ := decode_of_isFrame h
    exact ⟨m, hread⟩
  · obtain ⟨hfrom, htag, hwritten⟩ := hread_of hread h
    split
    · next hspare =>
      have hplain : m.isPlain = true := by rcases hspare with rfl | rfl <;> rfl
      exact ⟨decode_encode_of_isPlain source hplain, htag⟩
    · next hother =>
      obtain ⟨behind, rfl⟩ := hwritten hwell hother
      -- what is behind the fields is not read
      have hreceived : m.received = m := by
        rw [decode_encode_append hfrom, Except.ok.injEq] at hread
        exact hread
      have hself := decode_encode_append hfrom []
      rw [List.append_nil, hreceived] at hself
      exact ⟨hself, List.prefix_append _ _⟩
  · obtain ⟨texts, h⟩ := hframe hread
    exact decode_of_prefix (hread_of hread h).1

/-- Chat of visitor 7 that a host passes on, with a letter of two bytes and a byte behind the frame. -/
def relayedLetter : List UInt8 := [0x0D, 7, 0xC3, 0xA9, 0, 9]

/-- The letter is read, is written as it stands in the frame, and is not read without its end. -/
theorem decode_accepts_frames_relayedLetter :
    decode relayedLetter .admin = .ok (.chat (some ⟨7⟩) "é") ∧
      decode (encode (.chat (some ⟨7⟩) "é")) .admin = .ok (.chat (some ⟨7⟩) "é") ∧
      encode (.chat (some ⟨7⟩) "é") <+: relayedLetter ∧
      (¬ ∃ m, decode (relayedLetter.take 4) .admin = .ok m) := by
  have hread : decode relayedLetter .admin = .ok (.chat (some ⟨7⟩) "é") := by decide
  have hlayout : layout .admin .chatMessage = some [.any, .text maxText] := rfl
  have hspells : Spells [.any, .text maxText] (7 :: ([0xC3, 0xA9] ++ 0 :: [])) [[0xC3, 0xA9]] :=
    .byte (by decide) (.text (by decide) (by decide) .nil)
  have hframe : IsFrame .admin relayedLetter [[0xC3, 0xA9]] := .intro hlayout hspells [9]
  have hwell : ∀ t ∈ [[0xC3, 0xA9]], Utf8.WellFormed t := by
    simpa using Utf8.wellFormed_iff.mpr ⟨['é'], by decide⟩
  obtain ⟨-, hall⟩ := decode_accepts_frames relayedLetter .admin
  obtain ⟨hcanonical, hparts⟩ := hall _ hread
  obtain ⟨hself, hbegins⟩ := hcanonical _ hframe hwell
  refine ⟨hread, hself, by simpa using hbegins, ?_⟩
  rw [hparts _ (by decide) (by decide)]
  decide

end Wire

end BoothFloor
