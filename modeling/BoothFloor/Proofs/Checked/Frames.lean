import BoothFloor.Proofs.Checked.Arithmetic
import BoothFloor.Proofs.Text.Cut
import BoothFloor.Message.Wire

/-!
# Frames by position

Frames read byte by byte at their positions, and texts cut by going back, one byte at a time, to where a character
begins. The lengths are compared before a position is looked at, and going back always comes to a beginning, so
reading and writing never leave the bytes that are there.
-/

namespace BoothFloor

namespace Wire

/-- What comes of reading a frame by its positions: a fault, or else a refusal or a value. -/
abbrev Reading (α : Type) : Type := ExceptT FrameError (Except Fault) α

namespace Reading

/-- A frame is refused if it has fewer bytes than expected. -/
def require (kind : FrameKind) (body : List UInt8) (expected : Nat) : Reading Unit :=
  if body.length < expected then throw (.tooShort kind expected body.length) else pure ()

/-- The byte at a position. -/
def byte (body : List UInt8) (i : Nat) : Reading UInt8 := ExceptT.lift (Checked.nth body i)

/-- The bytes from a position on. -/
def bytesFrom (body : List UInt8) (start : Nat) : Reading (List UInt8) :=
  ExceptT.lift (Checked.slice body start body.length)

/-- A field that may be refused. -/
def field {α : Type} (read : Except FrameError α) : Reading α := ExceptT.mk (.ok read)

/-- The text before the first NUL, which must be there and within the cap. -/
def text (kind : FrameKind) (max : Nat) (bytes : List UInt8) : Reading String :=
  match bytes.findIdx? (· == 0) with
  | none => throw (.unterminated kind)
  | some stop =>
    if max < stop then throw (.textTooLong kind max stop)
    else do
      let body ← ExceptT.lift (Checked.slice bytes 0 stop)
      return String.ofList (Utf8.decode body)

/-- The bytes after the tag. -/
def message (source : Role) (kind : FrameKind) (body : List UInt8) : Reading Message :=
  match kind with
  | .boothScan => pure .boothScan
  | .connectRequest => pure .connectRequest
  | .registerRequest => pure .registerRequest
  | .queueLeave => pure .queueLeave
  | .exitRequest => pure .exitRequest
  | .queueReady => pure .queueReady
  | .timeoutAlert => pure .timeoutAlert
  | .boothAnnounce => do
    require kind body 4
    return .boothAnnounce ⟨⟨← byte body 0⟩, ← byte body 1, ← byte body 2, ← byte body 3⟩
  | .boothInfo => do
    require kind body 4
    return .boothInfo (← byte body 0) (← byte body 1) (← byte body 2)
      (← text kind maxDescription (← bytesFrom body 3))
  | .userResponse => do
    require kind body 1
    return .userResponse (← field (readFlag kind "response" (← byte body 0)))
  | .registerResponse => do
    require kind body 2
    let reason ← field (readReason kind (← byte body 1))
    return .registerResponse (← field (readFlag kind "success" (← byte body 0))) reason
  | .queueInfo => do
    require kind body 2
    return .queueInfo (← byte body 0) (← byte body 1)
  | .queueUpdate => do
    require kind body 2
    return .queueUpdate (← byte body 0) (← byte body 1)
  | .exitResponse => do
    require kind body 1
    return .exitResponse (← field (readFlag kind "success" (← byte body 0)))
  | .adminMessage => do
    require kind body 1
    return .adminMessage (← text kind maxText body)
  | .chatMessage =>
    match source with
    | .admin => do
      require kind body 2
      return .chat (some ⟨← byte body 0⟩) (← text kind maxText (← bytesFrom body 1))
    | .user => do
      require kind body 1
      return .chat none (← text kind maxText body)
  | .userInfoRequest | .connectResponse | .queueJoinRequest | .queueReadyAck => throw (.reserved kind)

variable {α : Type} {read : Reading α} {plain : Except FrameError α}

/-- What is made of a value that is read without a fault. -/
theorem run_map (hread : read.run = .ok plain) (make : α → Message) :
    (read >>= fun a => pure (make a)).run = .ok (plain.map make) := by
  rw [ExceptT.run_bind, hread]
  cases plain <;> rfl

/-- What is read after a value that is read without a fault. -/
theorem run_bind (hread : read.run = .ok plain) {next : α → Reading Message} {after : α → Except FrameError Message}
    (hnext : ∀ a, (next a).run = .ok (after a)) : (read >>= next).run = .ok (plain >>= after) := by
  rw [ExceptT.run_bind, hread]
  cases plain with
  | error e => rfl
  | ok a => exact hnext a

/-- The text before the first NUL is found by its position. -/
theorem run_text (kind : FrameKind) (max : Nat) (bytes : List UInt8) :
    (text kind max bytes).run = .ok (readText kind max bytes) := by
  have hbody : bytes.takeWhile (· ≠ 0) = bytes.take (bytes.findIdx (· == 0)) := by
    rw [List.takeWhile_eq_take_findIdx_not]
    congr 2
    funext b
    by_cases hb : b = 0 <;> simp [hb]
  have hlength : (bytes.takeWhile (· ≠ 0)).length = bytes.findIdx (· == 0) := by
    rw [hbody, List.length_take_of_le List.findIdx_le_length]
  unfold text readText
  dsimp only
  rw [hlength, hbody]
  cases hstop : bytes.findIdx? (· == 0) with
  | none =>
    rw [if_pos (List.findIdx_eq_length.mpr (List.findIdx?_eq_none_iff.mp hstop))]
    rfl
  | some stop =>
    obtain ⟨hlt, heq⟩ := List.findIdx?_eq_some_iff_findIdx_eq.mp hstop
    rw [heq, if_neg (Nat.ne_of_lt hlt)]
    dsimp only
    split
    · rfl
    · rw [Checked.slice_zero_of_le (Nat.le_of_lt hlt)]
      rfl

/-- Reading the bytes by position reads what is there. -/
theorem run_message (source : Role) (kind : FrameKind) (body : List UInt8) :
    (message source kind body).run = .ok (decodePayload source kind body) := by
  cases kind
  case boothAnnounce =>
    match body with
    | [] | [_] | [_, _] | [_, _, _] => rfl
    | _ :: _ :: _ :: _ :: _ => rfl
  case boothInfo =>
    match body with
    | [] | [_] | [_, _] | [_, _, _] => rfl
    | current :: capacity :: waiting :: first :: rest =>
      have hrest : Checked.slice (current :: capacity :: waiting :: first :: rest) 3
          (current :: capacity :: waiting :: first :: rest).length = .ok (first :: rest) :=
        Checked.slice_length_of_le (by simp)
      change (bytesFrom _ 3 >>= fun bytes => text _ maxDescription bytes >>= fun description =>
        pure (Message.boothInfo current capacity waiting description)).run = _
      rw [bytesFrom, hrest]
      exact run_map (run_text _ _ _) _
  case queueInfo | queueUpdate =>
    match body with
    | [] | [_] => rfl
    | _ :: _ :: _ => rfl
  case userResponse | exitResponse =>
    match body with
    | [] => rfl
    | flag :: rest => exact @run_map _ (field (readFlag _ _ flag)) _ rfl _
  case registerResponse =>
    match body with
    | [] | [_] => rfl
    | flag :: code :: rest =>
      exact @run_bind _ (field (readReason _ code)) _ rfl _ _ fun reason =>
        @run_map _ (field (readFlag _ _ flag)) _ rfl _
  case adminMessage =>
    match body with
    | [] => rfl
    | first :: rest => exact run_map (run_text _ _ _) _
  case chatMessage =>
    match source, body with
    | .admin, [] | .admin, [_] | .user, [] => rfl
    | .admin, sender :: first :: rest =>
      have hrest : Checked.slice (sender :: first :: rest) 1 (sender :: first :: rest).length = .ok (first :: rest) :=
        Checked.slice_length_of_le (by simp)
      change (bytesFrom _ 1 >>= fun bytes => text _ maxText bytes >>= fun words =>
        pure (Message.chat (some ⟨sender⟩) words)).run = _
      rw [bytesFrom, hrest]
      exact run_map (run_text _ _ _) _
    | .user, first :: rest => exact run_map (run_text _ _ _) _
  all_goals rfl

end Reading

/-- The message that a frame carries, read by position. -/
def decodeChecked (frame : List UInt8) (source : Role) : Except Fault (Except FrameError Message) :=
  match frame with
  | [] => .ok (.error .empty)
  | tag :: body =>
    match FrameKind.ofTag? tag with
    | none => .ok (.error (.unknownTag tag))
    | some kind => (Reading.message source kind body).run

/-- Reading a frame by position never faults. -/
theorem decodeChecked_eq (frame : List UInt8) (source : Role) :
    decodeChecked frame source = .ok (decode frame source) := by
  cases frame with
  | nil => rfl
  | cons tag body =>
    unfold decodeChecked decode
    dsimp only
    cases FrameKind.ofTag? tag with
    | none => rfl
    | some kind => exact Reading.run_message source kind body

/-- Whether a character begins at this byte of a text, or the text ends there. -/
def isBoundary : List Char → Nat → Bool
  | _, 0 => true
  | [], _ + 1 => false
  | c :: cs, n + 1 => decide (Utf8.width c ≤ n + 1) && isBoundary cs (n + 1 - Utf8.width c)

/-- The last boundary of a text at or before a byte, found by going back one byte at a time. -/
def backToBoundary (cs : List Char) : Nat → Except Fault Nat
  | 0 => if isBoundary cs 0 then .ok 0 else .error .underflow
  | n + 1 => if isBoundary cs (n + 1) then .ok (n + 1) else backToBoundary cs n

/-- A text cut to its cap byte by byte and closed by a NUL. -/
def textBytesChecked (max : Nat) (text : String) : Except Fault (List UInt8) := do
  let cs := Text.beforeNul text.toList
  let stop ← backToBoundary cs (min (Utf8.size cs) max)
  return (← Checked.slice (Utf8.encode cs) 0 stop) ++ [0]

/-- The boundaries of a text are the ends of its beginnings. -/
theorem isBoundary_iff {cs : List Char} {n : Nat} :
    isBoundary cs n = true ↔ ∃ part, part <+: cs ∧ Utf8.size part = n := by
  induction cs generalizing n with
  | nil =>
    cases n with
    | zero => exact ⟨fun _ => ⟨[], List.prefix_rfl, rfl⟩, fun _ => rfl⟩
    | succ n =>
      refine ⟨nofun, ?_⟩
      rintro ⟨part, hpart, hsize⟩
      rw [List.prefix_nil.mp hpart] at hsize
      cases hsize
  | cons c cs ih =>
    cases n with
    | zero => exact ⟨fun _ => ⟨[], List.nil_prefix, rfl⟩, fun _ => by rw [isBoundary]⟩
    | succ n =>
      rw [isBoundary, Bool.and_eq_true, decide_eq_true_iff, ih]
      constructor
      · rintro ⟨hwidth, part, hpart, hsize⟩
        refine ⟨c :: part, (List.prefix_cons_inj c).mpr hpart, ?_⟩
        rw [Utf8.size, hsize]
        omega
      · rintro ⟨part, hpart, hsize⟩
        cases part with
        | nil => cases hsize
        | cons d part =>
          obtain ⟨rfl, hrest⟩ := List.cons_prefix_cons.mp hpart
          rw [Utf8.size] at hsize
          exact ⟨by omega, part, hrest, by omega⟩

/-- Going back comes to the last boundary. -/
theorem backToBoundary_of_last {cs : List Char} {last stop : Nat} (hlast : isBoundary cs last = true)
    (hle : last ≤ stop) (hnone : ∀ n, last < n → n ≤ stop → isBoundary cs n = false) :
    backToBoundary cs stop = .ok last := by
  induction stop with
  | zero =>
    obtain rfl := Nat.le_zero.mp hle
    rw [backToBoundary, if_pos hlast]
  | succ stop ih =>
    rw [backToBoundary]
    rcases Nat.eq_or_lt_of_le hle with rfl | hlt
    · rw [if_pos hlast]
    · rw [hnone _ hlt (Nat.le_refl _), if_neg Bool.false_ne_true]
      exact ih (Nat.le_of_lt_succ hlt) fun n hn hstop => hnone n hn (Nat.le_succ_of_le hstop)

/-- Going back from the cap comes to the end of what fits. -/
theorem backToBoundary_eq (cs : List Char) (max : Nat) :
    backToBoundary cs (min (Utf8.size cs) max) = .ok (Utf8.size (Text.fitting max cs)) := by
  have hfits := Text.size_fitting_le max cs
  have hpart := Text.fitting_prefix_self max cs
  have hwhole : Utf8.size (Text.fitting max cs) ≤ Utf8.size cs := by
    obtain ⟨rest, hrest⟩ := hpart
    have hsize := Utf8.size_append (Text.fitting max cs) rest
    rw [hrest] at hsize
    omega
  refine backToBoundary_of_last (isBoundary_iff.mpr ⟨_, hpart, rfl⟩) (by omega) fun n hn hstop => ?_
  rw [Bool.eq_false_iff, Ne, isBoundary_iff]
  rintro ⟨part, hbegins, rfl⟩
  have hwithin : part <+: Text.fitting max cs := Text.prefix_fitting hbegins (by omega)
  obtain ⟨rest, hrest⟩ := hwithin
  have hsize := Utf8.size_append part rest
  rw [hrest] at hsize
  omega

/-- The bytes up to the end of what fits are those of what fits. -/
theorem slice_fitting (max : Nat) (cs : List Char) :
    Checked.slice (Utf8.encode cs) 0 (Utf8.size (Text.fitting max cs)) = .ok (Utf8.encode (Text.fitting max cs)) := by
  obtain ⟨rest, hrest⟩ := Text.fitting_prefix_self max cs
  have hencode : Utf8.encode cs = Utf8.encode (Text.fitting max cs) ++ Utf8.encode rest :=
    (congrArg Utf8.encode hrest.symm).trans List.flatMap_append
  rw [hencode, ← Utf8.length_encode, Checked.slice_zero_of_le (by simp), List.take_left']
  rfl

/-- Cutting a text byte by byte never faults and leaves what fits. -/
theorem textBytesChecked_eq (max : Nat) (text : String) :
    textBytesChecked max text = .ok (textBytes max text) := by
  unfold textBytesChecked textBytes
  dsimp only
  rw [backToBoundary_eq, Checked.ok_bind, slice_fitting]
  rfl

/-- The bytes after the tag, with the text cut byte by byte. -/
def payloadChecked : Message → Except Fault (List UInt8)
  | .boothInfo current capacity waiting description => do
    return current :: capacity :: waiting :: (← textBytesChecked maxDescription description)
  | .adminMessage text | .chat none text => textBytesChecked maxText text
  | .chat (some sender) text => do return sender.byte :: (← textBytesChecked maxText text)
  | m => pure (payload m)

/-- The frame that carries a message, with its text cut byte by byte. -/
def encodeChecked (m : Message) : Except Fault (List UInt8) := do return m.kind.tag :: (← payloadChecked m)

/-- Writing a frame never faults. -/
theorem encodeChecked_eq (m : Message) : encodeChecked m = .ok (encode m) := by
  have hpayload : payloadChecked m = .ok (payload m) := by
    cases m with
    | chat sender text => cases sender <;> simp only [payloadChecked, textBytesChecked_eq] <;> rfl
    | boothInfo | adminMessage =>
      simp only [payloadChecked, textBytesChecked_eq]
      rfl
    | _ => rfl
  rw [encodeChecked, hpayload]
  rfl

end Wire

end BoothFloor
