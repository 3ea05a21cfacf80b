import BoothFloor.NodeId

/-!
# Messages

What nodes say to each other, and the kinds of frame that carry it. Four kinds keep their place in
the numbering although no node sends them.
-/

namespace BoothFloor

/-- The kinds of frame in the order of their tags. -/
inductive FrameKind where
  | userInfoRequest
  | connectRequest
  | connectResponse
  | boothInfo
  | userResponse
  | registerRequest
  | registerResponse
  | queueJoinRequest
  | queueInfo
  | exitRequest
  | timeoutAlert
  | adminMessage
  | chatMessage
  | boothScan
  | boothAnnounce
  | exitResponse
  | queueReady
  | queueReadyAck
  | queueUpdate
  | queueLeave
  deriving DecidableEq, Repr, Inhabited

namespace FrameKind

/-- The first byte of a frame of this kind. -/
def tag : FrameKind → UInt8
  | userInfoRequest => 0x01
  | connectRequest => 0x02
  | connectResponse => 0x03
  | boothInfo => 0x04
  | userResponse => 0x05
  | registerRequest => 0x06
  | registerResponse => 0x07
  | queueJoinRequest => 0x08
  | queueInfo => 0x09
  | exitRequest => 0x0A
  | timeoutAlert => 0x0B
  | adminMessage => 0x0C
  | chatMessage => 0x0D
  | boothScan => 0x0E
  | boothAnnounce => 0x0F
  | exitResponse => 0x10
  | queueReady => 0x11
  | queueReadyAck => 0x12
  | queueUpdate => 0x13
  | queueLeave => 0x14

/-- Every kind, in the order of the tags. -/
def all : List FrameKind :=
  [userInfoRequest, connectRequest, connectResponse, boothInfo, userResponse, registerRequest,
    registerResponse, queueJoinRequest, queueInfo, exitRequest, timeoutAlert, adminMessage,
    chatMessage, boothScan, boothAnnounce, exitResponse, queueReady, queueReadyAck, queueUpdate,
    queueLeave]

/-- The kind with a given tag. -/
def ofTag? (b : UInt8) : Option FrameKind := all.find? (·.tag == b)

/-- Kinds that are part of the numbering but not of the exchange. -/
def isReserved : FrameKind → Bool
  | userInfoRequest | connectResponse | queueJoinRequest | queueReadyAck => true
  | _ => false

/-- The name under which a kind is reported. -/
def name : FrameKind → String
  | userInfoRequest => "UserInfoRequest"
  | connectRequest => "ConnectRequest"
  | connectResponse => "ConnectResponse"
  | boothInfo => "BoothInfo"
  | userResponse => "UserResponse"
  | registerRequest => "RegisterRequest"
  | registerResponse => "RegisterResponse"
  | queueJoinRequest => "QueueJoinRequest"
  | queueInfo => "QueueInfo"
  | exitRequest => "ExitRequest"
  | timeoutAlert => "TimeoutAlert"
  | adminMessage => "AdminMessage"
  | chatMessage => "ChatMessage"
  | boothScan => "BoothScan"
  | boothAnnounce => "BoothAnnounce"
  | exitResponse => "ExitResponse"
  | queueReady => "QueueReady"
  | queueReadyAck => "QueueReadyAck"
  | queueUpdate => "QueueUpdate"
  | queueLeave => "QueueLeave"

theorem ofTag?_tag (k : FrameKind) : ofTag? k.tag = some k := by
  cases k <;> decide

theorem tag_of_ofTag? {b : UInt8} {k : FrameKind} (h : ofTag? b = some k) : k.tag = b := by
  simpa using List.find?_some h

end FrameKind

/-- How full a booth is, as it announces itself. -/
structure BoothStatus where
  booth : NodeId
  current : UInt8
  capacity : UInt8
  waiting : UInt8
  deriving DecidableEq, Repr, Inhabited

/-- Whether at least one slot is free. -/
def BoothStatus.hasFreeSlot (s : BoothStatus) : Bool := s.current < s.capacity

/-- Why a registration was answered as it was. -/
inductive RegisterReason where
  | success
  | alreadyUsed
  | fullWaiting
  deriving DecidableEq, Repr, Inhabited

namespace RegisterReason

def code : RegisterReason → UInt8
  | success => 0
  | alreadyUsed => 1
  | fullWaiting => 2

def ofCode? (b : UInt8) : Option RegisterReason :=
  [success, alreadyUsed, fullWaiting].find? (·.code == b)

theorem ofCode?_code (r : RegisterReason) : ofCode? r.code = some r := by
  cases r <;> decide

end RegisterReason

/-- What one node says to another. -/
inductive Message where
  | boothScan
  | boothAnnounce (status : BoothStatus)
  | connectRequest
  | boothInfo (current capacity waiting : UInt8) (description : String)
  | userResponse (accept : Bool)
  | registerRequest
  | registerResponse (success : Bool) (reason : RegisterReason)
  | queueInfo (position total : UInt8)
  /-- A position and total of zero tell the receiver that it was removed. -/
  | queueUpdate (position total : UInt8)
  | queueReady
  | queueLeave
  | exitRequest
  | exitResponse (success : Bool)
  | timeoutAlert
  | adminMessage (text : String)
  /-- Only chat relayed by a booth host names its sender. -/
  | chat (sender : Option NodeId) (text : String)
  deriving DecidableEq, Repr, Inhabited

/-- The kind of frame that carries a message. -/
def Message.kind : Message → FrameKind
  | boothScan => .boothScan
  | boothAnnounce _ => .boothAnnounce
  | connectRequest => .connectRequest
  | boothInfo .. => .boothInfo
  | userResponse _ => .userResponse
  | registerRequest => .registerRequest
  | registerResponse .. => .registerResponse
  | queueInfo .. => .queueInfo
  | queueUpdate .. => .queueUpdate
  | queueReady => .queueReady
  | queueLeave => .queueLeave
  | exitRequest => .exitRequest
  | exitResponse _ => .exitResponse
  | timeoutAlert => .timeoutAlert
  | adminMessage _ => .adminMessage
  | chat .. => .chatMessage

theorem Message.kind_not_reserved (m : Message) : m.kind.isReserved = false := by
  cases m <;> rfl

end BoothFloor
