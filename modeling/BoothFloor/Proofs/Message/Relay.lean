import BoothFloor.Proofs.Host.Addressees
import BoothFloor.Proofs.Host.Notices
import BoothFloor.Proofs.Message.Grammar
import BoothFloor.Proofs.Message.RoundTrip
import BoothFloor.Proofs.Text.Lossy

/-!
# What is left of a text that is passed on

A host reads the chat of a visitor and writes it again for the others. The cap is checked on the bytes that
come in, before what encodes nothing is replaced, and kept again when the text is written. So a text of
well-formed bytes is passed on as it is, while one that has grown in the reading may lose its end.
-/

namespace BoothFloor

namespace Message

/-- The text of a message, with the cap of its kind. -/
def capped? : Message → Option (String × Nat)
  | boothInfo _ _ _ description => some (description, Wire.maxDescription)
  | adminMessage text | chat _ text => some (text, Wire.maxText)
  | _ => none

/-- A message fits if its text has no NUL and is within the cap. -/
theorem fits_iff (m : Message) :
    m.Fits ↔ ∀ c ∈ m.capped?, '\x00' ∉ c.1.toList ∧ Text.byteSize c.1 ≤ c.2 := by
  cases m <;> simp [Fits, capped?]

end Message

namespace Wire

variable {f : List UInt8} {source : Role} {m : Message} {sender : Option NodeId} {text : String}

/-- A text that is read comes from bytes without a zero, within the cap. -/
theorem exists_body_of_readText {kind : FrameKind} {cap : Nat} {bytes : List UInt8}
    (h : readText kind cap bytes = .ok text) :
    ∃ body, 0 ∉ body ∧ body.length ≤ cap ∧ text = String.ofList (Utf8.decode body) := by
  obtain ⟨body, behind, rfl, hopen, hcap⟩ := closed_of_readText h
  rw [List.append_assoc, List.singleton_append, readText_of_closed kind hopen hcap] at h
  exact ⟨body, hopen, hcap, (Except.ok.inj h).symm⟩

/-- The text of a message that is read comes from bytes without a zero, within the cap. -/
theorem exists_body_of_decodePayload {kind : FrameKind} {bytes : List UInt8}
    (h : decodePayload source kind bytes = .ok m) :
    ∀ c ∈ m.capped?, ∃ body, 0 ∉ body ∧ body.length ≤ c.2 ∧ c.1 = String.ofList (Utf8.decode body) := by
  have hkind := kind_of_decodePayload h
  intro c hc
  cases m with
  | boothInfo | adminMessage | chat =>
    obtain rfl := Option.some.inj hc
    subst hkind
    simp only [Message.kind, decodePayload] at h
    split at h
    -- where the fields are not all there, nothing is read
    all_goals try cases h
    all_goals
      obtain ⟨text, htext, heq⟩ := exists_of_map_eq_ok h
      cases heq
      exact exists_body_of_readText htext
  | _ => cases hc

/-- A text that is read has no NUL, and takes at most three times as much room as its cap allows. -/
theorem capped_of_decode (h : decode f source = .ok m) :
    ∀ c ∈ m.capped?, '\x00' ∉ c.1.toList ∧ Text.byteSize c.1 ≤ 3 * c.2 := by
  obtain ⟨bytes, hpayload⟩ : ∃ bytes, decodePayload source m.kind bytes = .ok m := by
    obtain ⟨bytes, -, -, -, -, rfl, -⟩ := isFrame_of_decode h
    exact ⟨bytes, (decode_cons _ _ _).symm.trans h⟩
  intro c hc
  obtain ⟨body, hopen, hcap, htext⟩ := exists_body_of_decodePayload hpayload c hc
  rw [Text.byteSize, htext, String.toList_ofList]
  exact ⟨Utf8.nul_not_mem_decode hopen, (Utf8.size_decode_le body).trans (Nat.mul_le_mul_left 3 hcap)⟩

/-- A message that has been read fits exactly if its text is within the cap. -/
theorem fits_of_decode_iff (h : decode f source = .ok m) :
    m.Fits ↔ ∀ c ∈ m.capped?, Text.byteSize c.1 ≤ c.2 := by
  rw [m.fits_iff]
  exact ⟨fun hfits c hc => (hfits c hc).2, fun hcap c hc => ⟨(capped_of_decode h c hc).1, hcap c hc⟩⟩

/-- A message that has been read can be said by a node of the same role. -/
theorem isFrom_of_decode (h : decode f source = .ok m) : m.IsFrom source := by
  obtain ⟨body, fields, bytes, texts, behind, rfl, hlayout, hspells, rfl⟩ := isFrame_of_decode h
  obtain ⟨m', hread, hfrom, -⟩ := decode_of_isFrame (.intro hlayout hspells behind)
  obtain rfl := Except.ok.inj (h.symm.trans hread)
  exact hfrom

/-- A message that is read from well-formed texts is written as one that arrives unchanged. -/
theorem received_of_wellFormed (h : decode f source = .ok m) {texts : List (List UInt8)}
    (hframe : IsFrame source f texts) (hwell : ∀ t ∈ texts, Utf8.WellFormed t) : m.received = m := by
  obtain ⟨m', hread, hfrom, -, hbegins⟩ := decode_of_isFrame hframe
  obtain rfl := Except.ok.inj (h.symm.trans hread)
  by_cases hspare : m = .queueReady ∨ m = .timeoutAlert
  · rcases hspare with rfl | rfl <;> rfl
  · obtain ⟨behind, rfl⟩ := hbegins hwell hspare
    rw [decode_encode_append hfrom, Except.ok.injEq] at h
    exact h

/-- A message that is read and written again comes back with its text cut to the cap; nothing is lost exactly if
the text is within it, as it is if it has been read from well-formed bytes. -/
theorem decode_encode_of_decode (h : decode f source = .ok m) :
    ∃ m', decode (encode m) source = .ok m' ∧ m.Arrives m' ∧
      (m' = m ↔ ∀ c ∈ m.capped?, Text.byteSize c.1 ≤ c.2) ∧
      ∀ texts, IsFrame source f texts → (∀ t ∈ texts, Utf8.WellFormed t) → m' = m := by
  have hread := decode_encode_append (isFrom_of_decode h) []
  rw [List.append_nil] at hread
  refine ⟨m.received, hread, m.arrives_received, ?_, fun texts => received_of_wellFormed h⟩
  rw [← fits_of_decode_iff h, ← m.arrives_self_iff]
  refine ⟨fun hself => ?_, fun hself => hself.eq m.arrives_received⟩
  have harrives := m.arrives_received
  rwa [hself] at harrives

/-- Chat that has been read is passed on with its text cut to the cap, and whole exactly if it is within it. -/
theorem decode_relayed (h : decode f source = .ok (.chat sender text)) (u : NodeId) :
    ∃ cut, Text.IsCut maxText text cut ∧ (cut = text ↔ Text.byteSize text ≤ maxText) ∧
      decode (encode (.chat (some u) text)) .admin = .ok (.chat (some u) cut) := by
  have hnul : '\x00' ∉ text.toList := (capped_of_decode h _ rfl).1
  have hfrom : (Message.chat (some u) text).IsFrom .admin := by simp [Message.IsFrom]
  have hread := decode_encode_append hfrom []
  rw [List.append_nil] at hread
  have hcut := Text.wired_isCut maxText text
  refine ⟨_, hcut, ?_, hread⟩
  constructor
  · intro hself
    rw [hself] at hcut
    exact hcut.fits
  · intro hfits
    exact (Text.isCut_self_iff.mpr ⟨hnul, hfits⟩).eq hcut

/-- Chat of a user inside is reported as it has been read, and passed on to everyone else inside. -/
theorem react_chat {h : Host} (horderly : h.booth.Orderly) (hvisitors : h.ForVisitors) {u : NodeId}
    (hinside : u ∈ h.booth.activeUsers) (m : Moment) (rssi : Int16) (snr : Int8) :
    Action.emitted (h.react m (.message u (.chat sender text) rssi snr)).2 = [.chatReceived u (some u) text] ∧
      Action.sent (h.react m (.message u (.chat sender text) rssi snr)).2 =
        (h.booth.activeUsers.filter (· ≠ u)).map (·, .chat (some u) text) := by
  have hguest : h.rules.isHost u = false := hvisitors.registered u (horderly.active_registered u hinside)
  constructor
  · change Action.emitted (h.onMessage m.now u _).2 = _
    rw [Host.onMessage_emitted, hguest, if_neg Bool.false_ne_true]
    simp only [Host.onChat_emitted, if_pos hinside]
  · change Action.sent (h.onMessage m.now u _).2 = _
    rw [Host.onMessage_sent, hguest, if_neg Bool.false_ne_true]
    simp only [Host.onChat_sent, if_pos hinside]

/-- What is read from a frame and written again comes back with its text cut to the cap. The text is within the
cap, and so comes back whole, if it has been read from well-formed bytes; it never takes more than three times as
much room. What a host reports of the chat of a user inside comes to everyone else inside with the same cut. -/
theorem relayed_text_survives (id : NodeId) (rules : Rules) (past : List (Moment × Input)) :
    (∀ f source m, decode f source = .ok m →
      ∃ m', decode (encode m) source = .ok m' ∧ m.Arrives m' ∧
        (m' = m ↔ ∀ c ∈ m.capped?, Text.byteSize c.1 ≤ c.2) ∧
        (∀ texts, IsFrame source f texts → (∀ t ∈ texts, Utf8.WellFormed t) → m' = m) ∧
        ∀ c ∈ m.capped?, Text.byteSize c.1 ≤ 3 * c.2) ∧
      let h := ((Host.ofRules id rules).run past).1
      ∀ u ∈ h.booth.activeUsers, ∀ f sender text,
        decode f (rules.hosts.roleOf u) = .ok (.chat sender text) →
        (∀ m rssi snr,
          let relay := (h.react m (.message u (.chat sender text) rssi snr)).2
          Action.emitted relay = [.chatReceived u (some u) text] ∧
            Action.sent relay = (h.booth.activeUsers.filter (· ≠ u)).map (·, .chat (some u) text)) ∧
        ∃ cut, Text.IsCut maxText text cut ∧ (cut = text ↔ Text.byteSize text ≤ maxText) ∧
          decode (encode (.chat (some u) text)) .admin = .ok (.chat (some u) cut) := by
  constructor
  · intro f source m hread
    obtain ⟨m', hagain, harrives, hwhole, hwell⟩ := decode_encode_of_decode hread
    exact ⟨m', hagain, harrives, hwhole, hwell, fun c hc => (capped_of_decode hread c hc).2⟩
  · intro h u hinside f sender text hread
    have horderly : h.booth.Orderly := Host.run_orderly (Booth.orderly_ofRules id rules) past
    have hvisitors : h.ForVisitors := (Host.forVisitors_ofRules id rules).run past
    exact ⟨react_chat horderly hvisitors hinside, decode_relayed hread u⟩

/-- Chat of a visitor with a byte that encodes nothing. -/
def brokenChat : List UInt8 := [0x0D, 0xFF, 0x61, 0]

/-- Chat of a visitor with a letter of two bytes. -/
def letterChat : List UInt8 := [0x0D, 0xC3, 0xA9, 0]

/-- Both are short enough to come back as they were read, and the first one comes to another visitor as the host
has reported it. -/
theorem relayed_text_survives_brokenChat :
    let h := ((Host.ofRules ⟨1⟩ .brisk).run (Host.threeVisitors.take 4)).1
    let relay := (h.react ⟨⟨40⟩, 3⟩ (.message ⟨4⟩ (.chat none "\ufffda") 0 0)).2
    decode brokenChat .user = .ok (.chat none "\ufffda") ∧
      decode (encode (.chat none "\ufffda")) .user = .ok (.chat none "\ufffda") ∧
      decode (encode (.chat none "é")) .user = decode letterChat .user ∧
      Action.emitted relay = [.chatReceived ⟨4⟩ (some ⟨4⟩) "\ufffda"] ∧
      Action.sent relay = [(⟨5⟩, .chat (some ⟨4⟩) "\ufffda")] ∧
      decode (encode (.chat (some ⟨4⟩) "\ufffda")) .admin = .ok (.chat (some ⟨4⟩) "\ufffda") := by
  intro h relay
  have hbroken : decode brokenChat .user = .ok (.chat none "\ufffda") := by decide
  have hletter : decode letterChat .user = .ok (.chat none "é") := by decide
  have hlayout : layout .user .chatMessage = some [.text maxText] := rfl
  have hspells : Spells [.text maxText] ([0xC3, 0xA9] ++ 0 :: []) [[0xC3, 0xA9]] :=
    .text (by decide) (by decide) .nil
  have hframe : IsFrame .user letterChat [[0xC3, 0xA9]] := .intro hlayout hspells []
  have hwell : ∀ t ∈ [[0xC3, 0xA9]], Utf8.WellFormed t := by
    simpa using Utf8.wellFormed_iff.mpr ⟨['é'], by decide⟩
  obtain ⟨hreads, hrelays⟩ := relayed_text_survives ⟨1⟩ .brisk (Host.threeVisitors.take 4)
  obtain ⟨m₁, hagain₁, -, hwhole, -, -⟩ := hreads _ _ _ hbroken
  obtain ⟨m₂, hagain₂, -, -, hsame, -⟩ := hreads _ _ _ hletter
  obtain rfl := hwhole.mpr (by decide)
  obtain rfl := hsame _ hframe hwell
  obtain ⟨hreaction, cut, -, hcut, harrives⟩ := hrelays ⟨4⟩ (by decide) brokenChat none "\ufffda" hbroken
  obtain rfl := hcut.mpr (by decide)
  obtain ⟨hemitted, hsent⟩ := hreaction ⟨⟨40⟩, 3⟩ 0 0
  exact ⟨hbroken, hagain₁, hagain₂.trans hletter.symm, hemitted, hsent.trans (by decide), harrives⟩

/-- Chat of a visitor that is within the cap until its bytes are read. -/
def mangledChat : List UInt8 := 0x0D :: (List.replicate 34 0xFF ++ [0])

/-- A text of 34 bytes that encode nothing is read as 34 characters, and one of them is lost when it is written. -/
theorem mangledChat_loses_text :
    let text := String.ofList (List.replicate 34 Utf8.replacement)
    decode mangledChat .user = .ok (.chat none text) ∧ maxText < Text.byteSize text ∧
      decode (encode (.chat none text)) .user = .ok (.chat none (.ofList (List.replicate 33 Utf8.replacement))) ∧
      ¬ ∀ f source m, decode f source = .ok m → decode (encode m) source = .ok m := by
  intro text
  have hread : decode mangledChat .user = .ok (.chat none text) := by decide +kernel
  have hagain : decode (encode (.chat none text)) .user =
      .ok (.chat none (.ofList (List.replicate 33 Utf8.replacement))) := by
    decide +kernel
  refine ⟨hread, by decide +kernel, hagain, fun hall => ?_⟩
  have hsame := hagain.symm.trans (hall _ _ _ hread)
  revert hsame
  decide +kernel

end Wire

end BoothFloor
