import BoothFloor.Datagram
import BoothFloor.Proofs.Message.RoundTrip
import BoothFloor.Proofs.NodeId

/-!
# Frames in datagrams

A datagram is the frame that it carries, written in another way: what is read from one is written back as the same
bytes, and what is written is read back as it was. The header never gets in the way of the frame behind it, so a
message that travels in a datagram arrives as it does on the air.
-/

namespace BoothFloor

namespace Datagram

variable {datagram : List UInt8} {f : Frame}

/-- A frame from a node that can exist is read back from its datagram, with the strength in a wider word. -/
theorem decode_encode {source : NodeId} (hsource : source.isReserved = false) (rssi snr : Int8) {bytes : List UInt8}
    (hbytes : bytes ≠ []) : decode (encode source rssi snr bytes) = .ok ⟨source, bytes, rssi.toInt16, snr⟩ := by
  obtain ⟨first, rest, rfl⟩ := List.exists_cons_of_ne_nil hbytes
  unfold decode encode
  dsimp only
  rw [hsource, if_neg Bool.false_ne_true, Int8.toInt8_toUInt8, Int8.toInt8_toUInt8]

/-- A datagram is read as a frame exactly if it is the one written from it, the frame has a byte at least, and its
sender can exist. -/
theorem decode_eq_ok_iff :
    decode datagram = .ok f ↔
      f.source.isReserved = false ∧ f.bytes ≠ [] ∧ f.rssi.toInt8.toInt16 = f.rssi ∧
        datagram = encode f.source f.rssi.toInt8 f.snr f.bytes := by
  constructor
  · intro h
    unfold decode at h
    split at h
    · next source rssi snr first rest =>
      split at h
      · cases h
      · next hfree =>
        obtain rfl := Except.ok.inj h
        refine ⟨Bool.eq_false_iff.mpr hfree, nofun, ?_, ?_⟩
        · rw [Int8.toInt8_toInt16]
        · rw [encode, Int8.toInt8_toInt16, UInt8.toUInt8_toInt8, UInt8.toUInt8_toInt8]
    · cases h
  · rintro ⟨hsource, hbytes, hrssi, rfl⟩
    rw [decode_encode hsource _ _ hbytes, hrssi]

/-- A datagram is accepted exactly if there is a byte behind its header and its sender can exist. -/
theorem exists_decode_iff :
    (∃ f, decode datagram = .ok f) ↔ 4 ≤ datagram.length ∧ datagram.head? ≠ some 0 ∧ datagram.head? ≠ some 255 := by
  constructor
  · rintro ⟨f, hf⟩
    obtain ⟨hsource, hbytes, -, rfl⟩ := decode_eq_ok_iff.mp hf
    obtain ⟨hzero, hlast⟩ := NodeId.isReserved_eq_false_iff.mp hsource
    have hlength : 0 < f.bytes.length := List.length_pos_iff.mpr hbytes
    refine ⟨?_, fun h => hzero (Option.some.inj h), fun h => hlast (Option.some.inj h)⟩
    simp only [encode, List.length_cons]
    omega
  · rintro ⟨hlength, hzero, hlast⟩
    match datagram with
    | source :: rssi :: snr :: first :: rest =>
      have hsource : NodeId.isReserved ⟨source⟩ = false :=
        NodeId.isReserved_eq_false_iff.mpr ⟨fun h => hzero (congrArg some h), fun h => hlast (congrArg some h)⟩
      refine ⟨⟨⟨source⟩, first :: rest, rssi.toInt8.toInt16, snr.toInt8⟩, ?_⟩
      unfold decode
      dsimp only
      rw [hsource, if_neg Bool.false_ne_true]

/-- Datagram and frame fit into one another. A message that a sender of a role can say comes back from the datagram of
its frame: the frame has the sender, strength and quality that were written, and it is read as the one form in which the
message arrives, its text cut at the first NUL and then to its cap. A datagram is accepted exactly if it has four bytes
at least and its first one is no reserved id; the parts of the accepted frame are written back as the same bytes. -/
theorem carries_frames :
    (∀ (source : NodeId) (rssi snr : Int8) (m : Message) (role : Role), source.byte ≠ 0 → source.byte ≠ 255 →
      m.IsFrom role →
        decode (encode source rssi snr (Wire.encode m)) = .ok ⟨source, Wire.encode m, rssi.toInt16, snr⟩ ∧
          ∃ m', (∀ m'', m.Arrives m'' ↔ m'' = m') ∧ Wire.decode (Wire.encode m) role = .ok m') ∧
      (∀ datagram, (∃ f, decode datagram = .ok f) ↔
        4 ≤ datagram.length ∧ datagram.head? ≠ some 0 ∧ datagram.head? ≠ some 255) ∧
      ∀ datagram f, decode datagram = .ok f →
        f.rssi.toInt8.toInt16 = f.rssi ∧ encode f.source f.rssi.toInt8 f.snr f.bytes = datagram := by
  refine ⟨fun source rssi snr m role hzero hlast hfrom => ?_, fun _ => exists_decode_iff, fun datagram f hf => ?_⟩
  · refine ⟨decode_encode (NodeId.isReserved_eq_false_iff.mpr ⟨hzero, hlast⟩) rssi snr nofun, ?_⟩
    have hread := Wire.decode_encode_append hfrom []
    rw [List.append_nil] at hread
    exact ⟨m.received, fun _ => Message.arrives_iff, hread⟩
  · obtain ⟨-, -, hrssi, hwritten⟩ := decode_eq_ok_iff.mp hf
    exact ⟨hrssi, hwritten.symm⟩

/-- An announcement with a letter of two bytes across its cap. -/
def wideAnnouncement : Message := .adminMessage (String.ofList (List.replicate 99 'a' ++ ['é']))

/-- The announcement from the last id, as faint as a datagram can say, arrives without its last letter. -/
theorem carries_frames_wideAnnouncement :
    wideAnnouncement.IsFrom .admin ∧
      decode (encode ⟨254⟩ (-128) (-3) (Wire.encode wideAnnouncement)) =
        .ok ⟨⟨254⟩, Wire.encode wideAnnouncement, -128, -3⟩ ∧
      Wire.decode (Wire.encode wideAnnouncement) .admin =
        .ok (.adminMessage (String.ofList (List.replicate 99 'a'))) ∧
      encode ⟨254⟩ (-128) (-3) [0x02] = [254, 0x80, 0xFD, 0x02] := by
  obtain ⟨hcarries, -, hback⟩ := carries_frames
  obtain ⟨hframe, m', hone, hread⟩ :=
    hcarries ⟨254⟩ (-128) (-3) wideAnnouncement .admin (by decide) (by decide) trivial
  have hcut : wideAnnouncement.Arrives (.adminMessage (String.ofList (List.replicate 99 'a'))) := by
    have hwired : Text.wired Wire.maxText (String.ofList (List.replicate 99 'a' ++ ['é'])) =
        String.ofList (List.replicate 99 'a') := by
      decide +kernel
    exact .adminMessage (hwired ▸ Text.wired_isCut _ _)
  have hbytes := (hback [254, 0x80, 0xFD, 0x02] ⟨⟨254⟩, [0x02], -128, -3⟩ rfl).2
  exact ⟨trivial, hframe, (hone _).mp hcut ▸ hread, hbytes⟩

/-- An announcement with a NUL in its text, which fits the cap. -/
def brokenAnnouncement : Message := .adminMessage "a\x00b"

/-- A text that fits the cap does not arrive whole if it has a NUL: what stands behind it is lost. -/
theorem nul_cuts_announcement :
    brokenAnnouncement.IsFrom .admin ∧ Text.byteSize "a\x00b" ≤ Wire.maxText ∧
      decode (encode ⟨1⟩ (-60) 8 (Wire.encode brokenAnnouncement)) =
        .ok ⟨⟨1⟩, Wire.encode brokenAnnouncement, -60, 8⟩ ∧
      Wire.decode (Wire.encode brokenAnnouncement) .admin = .ok (.adminMessage "a") ∧
      Message.adminMessage "a" ≠ brokenAnnouncement := by
  refine ⟨trivial, by decide, by decide +kernel, by decide +kernel, by decide⟩

end Datagram

end BoothFloor
