import BoothFloor.Message
import BoothFloor.Text.Json

/-!
# Messages in structured text

A message by the name of its variant: alone if it carries nothing, otherwise as the only field of an
object.
-/

namespace BoothFloor

namespace NodeId

def toJson (id : NodeId) : Json := .ofByte id.byte

def ofJson? (v : Json) : Option NodeId := v.byte?.map NodeId.mk

end NodeId

namespace BoothStatus

def toJson (s : BoothStatus) : Json :=
  .obj
    [("booth_id", s.booth.toJson), ("current_count", .ofByte s.current),
      ("capacity", .ofByte s.capacity), ("waiting_count", .ofByte s.waiting)]

def ofJson? (v : Json) : Option BoothStatus := do
  let booth ← NodeId.ofJson? (← v.get? "booth_id")
  let current ← (← v.get? "current_count").byte?
  let capacity ← (← v.get? "capacity").byte?
  let waiting ← (← v.get? "waiting_count").byte?
  return { booth, current, capacity, waiting }

end BoothStatus

namespace RegisterReason

def name : RegisterReason → String
  | success => "Success"
  | alreadyUsed => "AlreadyUsed"
  | fullWaiting => "FullWaiting"

def ofName? (name : String) : Option RegisterReason :=
  [success, alreadyUsed, fullWaiting].find? (·.name == name)

theorem ofName?_name (r : RegisterReason) : ofName? r.name = some r := by
  cases r <;> decide

end RegisterReason

namespace Message

/-- A place in a queue, as two messages carry it. -/
def placeJson (position total : UInt8) : Json :=
  .obj [("position", .ofByte position), ("total", .ofByte total)]

def toJson : Message → Json
  | boothScan => .str "BoothScan"
  | boothAnnounce s => .variant "BoothAnnounce" s.toJson
  | connectRequest => .str "ConnectRequest"
  | boothInfo current capacity waiting description =>
    .variant "BoothInfo" <| .obj
      [("current_count", .ofByte current), ("capacity", .ofByte capacity),
        ("waiting_count", .ofByte waiting), ("description", .str description)]
  | userResponse accept => .variant "UserResponse" (.obj [("accept", .bool accept)])
  | registerRequest => .str "RegisterRequest"
  | registerResponse success reason =>
    .variant "RegisterResponse" (.obj [("success", .bool success), ("reason", .str reason.name)])
  | queueInfo position total => .variant "QueueInfo" (placeJson position total)
  | queueUpdate position total => .variant "QueueUpdate" (placeJson position total)
  | queueReady => .str "QueueReady"
  | queueLeave => .str "QueueLeave"
  | exitRequest => .str "ExitRequest"
  | exitResponse success => .variant "ExitResponse" (.obj [("success", .bool success)])
  | timeoutAlert => .str "TimeoutAlert"
  | adminMessage text => .variant "AdminMessage" (.obj [("text", .str text)])
  | chat sender text =>
    .variant "Chat" (.obj [("sender", .ofOption NodeId.toJson sender), ("text", .str text)])

/-- The messages that carry nothing. -/
def bare : List Message :=
  [boothScan, connectRequest, registerRequest, queueReady, queueLeave, exitRequest, timeoutAlert]

/-- The message of a variant that carries something. -/
def ofVariant? (name : String) (v : Json) : Option Message := do
  match name with
  | "BoothAnnounce" => return boothAnnounce (← BoothStatus.ofJson? v)
  | "BoothInfo" =>
    return boothInfo (← (← v.get? "current_count").byte?) (← (← v.get? "capacity").byte?)
      (← (← v.get? "waiting_count").byte?) (← (← v.get? "description").str?)
  | "UserResponse" => return userResponse (← (← v.get? "accept").bool?)
  | "RegisterResponse" =>
    return registerResponse (← (← v.get? "success").bool?)
      (← RegisterReason.ofName? (← (← v.get? "reason").str?))
  | "QueueInfo" => return queueInfo (← (← v.get? "position").byte?) (← (← v.get? "total").byte?)
  | "QueueUpdate" => return queueUpdate (← (← v.get? "position").byte?) (← (← v.get? "total").byte?)
  | "ExitResponse" => return exitResponse (← (← v.get? "success").bool?)
  | "AdminMessage" => return adminMessage (← (← v.get? "text").str?)
  | "Chat" => return chat (← v.optional? NodeId.ofJson? "sender") (← (← v.get? "text").str?)
  | _ => none

def ofJson? (v : Json) : Option Message :=
  match v with
  | .str name => bare.find? (·.kind.name == name)
  | .obj [(name, v)] => ofVariant? name v
  | _ => none

end Message

end BoothFloor
