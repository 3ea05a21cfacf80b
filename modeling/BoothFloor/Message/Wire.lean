import BoothFloor.Message
import BoothFloor.Text.Cut

/-!
# Messages as bytes

A frame is a tag byte followed by the fields of its kind: single bytes, and text that ends with a
NUL. Writing cuts text to its cap; reading checks that every field is there before it looks at one,
and says what is wrong with a frame that it refuses.
-/

namespace BoothFloor

/-- What is wrong with a frame. -/
inductive FrameError where
  | empty
  | unknownTag (tag : UInt8)
  | reserved (kind : FrameKind)
  | tooShort (kind : FrameKind) (expected actual : Nat)
  | unterminated (kind : FrameKind)
  | textTooLong (kind : FrameKind) (max actual : Nat)
  | invalidField (kind : FrameKind) (field : String) (value : UInt8)
  | bufferTooSmall (needed available : Nat)
  deriving DecidableEq, Repr

namespace FrameError

/-- A byte as two upper-case hexadecimal digits. -/
def hexByte (b : UInt8) : String :=
  let digit (n : Nat) : Char := Char.ofNat (if n < 10 then 48 + n else 55 + n)
  String.ofList [digit (b.toNat / 16), digit (b.toNat % 16)]

def message : FrameError → String
  | empty => "Empty frame"
  | unknownTag tag => "Unknown message type: 0x" ++ hexByte tag
  | reserved kind => "Reserved message type " ++ kind.name ++ " is not handled"
  | tooShort kind expected actual =>
    kind.name ++ " payload too short (expected at least " ++ toString expected ++ ", got " ++
      toString actual ++ ")"
  | unterminated kind => kind.name ++ " text is not NUL-terminated"
  | textTooLong kind max actual =>
    kind.name ++ " text too long (max " ++ toString max ++ ", got " ++ toString actual ++ ")"
  | invalidField kind field value =>
    "Invalid " ++ field ++ " value " ++ toString value ++ " in " ++ kind.name
  | bufferTooSmall needed available =>
    "Output buffer too small (need " ++ toString needed ++ ", have " ++ toString available ++ ")"

end FrameError

namespace Wire

/-- The cap in bytes on chat and announcements, without the final NUL. -/
def maxText : Nat := 100

/-- The cap in bytes on a booth's description, without the final NUL. -/
def maxDescription : Nat := 49

/-- The longest frame that is ever written: relayed chat with a full text. -/
def maxFrame : Nat := 1 + 1 + maxText + 1

/-- Text cut to its cap and closed by a NUL. -/
def textBytes (max : Nat) (text : String) : List UInt8 :=
  Utf8.encode (Text.fitting max (Text.beforeNul text.toList)) ++ [0]

def flagByte (b : Bool) : UInt8 := if b then 1 else 0

/-- The bytes after the tag. -/
def payload : Message → List UInt8
  | .boothScan | .connectRequest | .registerRequest | .queueLeave | .exitRequest => []
  | .boothAnnounce s => [s.booth.byte, s.current, s.capacity, s.waiting]
  | .boothInfo current capacity waiting description =>
    current :: capacity :: waiting :: textBytes maxDescription description
  | .userResponse accept => [flagByte accept]
  | .registerResponse success reason => [flagByte success, reason.code]
  | .queueInfo position total | .queueUpdate position total => [position, total]
  | .queueReady | .timeoutAlert => [0]
  | .exitResponse success => [flagByte success]
  | .adminMessage text => textBytes maxText text
  | .chat none text => textBytes maxText text
  | .chat (some sender) text => sender.byte :: textBytes maxText text

/-- The frame that carries a message. -/
def encode (m : Message) : List UInt8 := m.kind.tag :: payload m

/-- Write a frame over the beginning of a buffer and give its length. -/
def encodeInto (m : Message) (buffer : List UInt8) : Except FrameError (Nat × List UInt8) :=
  let frame := encode m
  if frame.length ≤ buffer.length then .ok (frame.length, frame ++ buffer.drop frame.length)
  else .error (.bufferTooSmall frame.length buffer.length)

def readFlag (kind : FrameKind) (field : String) (b : UInt8) : Except FrameError Bool :=
  if b = 0 then .ok false else if b = 1 then .ok true else .error (.invalidField kind field b)

def readReason (kind : FrameKind) (b : UInt8) : Except FrameError RegisterReason :=
  match RegisterReason.ofCode? b with
  | some r => .ok r
  | none => .error (.invalidField kind "reason" b)

/-- The text before the first NUL, which must be there and within the cap. -/
def readText (kind : FrameKind) (max : Nat) (bytes : List UInt8) : Except FrameError String :=
  let body := bytes.takeWhile (· ≠ 0)
  if body.length = bytes.length then .error (.unterminated kind)
  else if max < body.length then .error (.textTooLong kind max body.length)
  else .ok (String.ofList (Utf8.decode body))

/-- Read the bytes after the tag. Chat from a booth host begins with the id of its sender. -/
def decodePayload (source : Role) (kind : FrameKind) (body : List UInt8) :
    Except FrameError Message :=
  let short (expected : Nat) : Except FrameError Message :=
    .error (.tooShort kind expected body.length)
  match kind with
  | .boothScan => .ok .boothScan
  | .connectRequest => .ok .connectRequest
  | .registerRequest => .ok .registerRequest
  | .queueLeave => .ok .queueLeave
  | .exitRequest => .ok .exitRequest
  | .queueReady => .ok .queueReady
  | .timeoutAlert => .ok .timeoutAlert
  | .boothAnnounce =>
    match body with
    | id :: current :: capacity :: waiting :: _ =>
      .ok (.boothAnnounce ⟨⟨id⟩, current, capacity, waiting⟩)
    | _ => short 4
  | .boothInfo =>
    match body with
    | current :: capacity :: waiting :: first :: rest =>
      (readText kind maxDescription (first :: rest)).map (.boothInfo current capacity waiting)
    | _ => short 4
  | .userResponse =>
    match body with
    | flag :: _ => (readFlag kind "response" flag).map .userResponse
    | _ => short 1
  | .registerResponse =>
    match body with
    | flag :: code :: _ => do
      let reason ← readReason kind code
      let success ← readFlag kind "success" flag
      return .registerResponse success reason
    | _ => short 2
  | .queueInfo =>
    match body with
    | position :: total :: _ => .ok (.queueInfo position total)
    | _ => short 2
  | .queueUpdate =>
    match body with
    | position :: total :: _ => .ok (.queueUpdate position total)
    | _ => short 2
  | .exitResponse =>
    match body with
    | flag :: _ => (readFlag kind "success" flag).map .exitResponse
    | _ => short 1
  | .adminMessage =>
    match body with
    | first :: rest => (readText kind maxText (first :: rest)).map .adminMessage
    | _ => short 1
  | .chatMessage =>
    match source, body with
    | .admin, sender :: first :: rest =>
      (readText kind maxText (first :: rest)).map (.chat (some ⟨sender⟩))
    | .admin, _ => short 2
    | .user, first :: rest => (readText kind maxText (first :: rest)).map (.chat none)
    | .user, _ => short 1
  | .userInfoRequest | .connectResponse | .queueJoinRequest | .queueReadyAck =>
    .error (.reserved kind)

/-- The message that a frame from a node of role `source` carries. -/
def decode (frame : List UInt8) (source : Role) : Except FrameError Message :=
  match frame with
  | [] => .error .empty
  | tag :: body =>
    match FrameKind.ofTag? tag with
    | none => .error (.unknownTag tag)
    | some kind => decodePayload source kind body

end Wire

end BoothFloor
