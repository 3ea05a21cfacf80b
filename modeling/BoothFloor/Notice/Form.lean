import BoothFloor.Message.Form
import BoothFloor.Notice

/-!
# Notices in structured text

A notice and a snapshot as objects: the name of the notice under `event`, the role of the node under
`role`, and the other fields beside it.
-/

namespace BoothFloor

namespace Stage

def ofKey? (key : String) : Option Stage :=
  [scanning, connected, waiting, inUse].find? (·.key == key)

theorem ofKey?_key (s : Stage) : ofKey? s.key = some s := by
  cases s <;> decide

end Stage

namespace RetryStage

def key : RetryStage → String
  | connect => "connect"
  | register => "register"

def ofKey? (key : String) : Option RetryStage := [connect, register].find? (·.key == key)

end RetryStage

namespace EndReason

def key : EndReason → String
  | exited => "exited"
  | timedOut => "timed_out"
  | forcedExpiry => "forced_expiry"

def ofKey? (key : String) : Option EndReason :=
  [exited, timedOut, forcedExpiry].find? (·.key == key)

end EndReason

namespace Snapshot

def idsJson (ids : List NodeId) : Json := .ofList NodeId.toJson ids

def fields : Snapshot → List (String × Json)
  | host s =>
    [("role", .str "admin"), ("id", s.id.toJson), ("status", s.status.toJson),
      ("description", .str s.description), ("active", idsJson s.active),
      ("waiting", idsJson s.waiting), ("registered", idsJson s.registered),
      ("pending_offer", .ofOption NodeId.toJson s.offer),
      ("broadcast_enabled", .bool s.broadcasting)]
  | visitor s =>
    [("role", .str "user"), ("id", s.id.toJson), ("state", .str s.stage.key),
      ("booth", .ofOption NodeId.toJson s.booth), ("queue_position", .ofByte s.position),
      ("queue_total", .ofByte s.total),
      ("session_start", .ofOption (fun t => .ofNat t.ms.toNat) s.sessionStart),
      ("visits", idsJson s.visits)]

def toJson (s : Snapshot) : Json := .obj s.fields

def ids? (v : Json) (key : String) : Option (List NodeId) := do
  (← (← v.get? key).items?).mapM NodeId.ofJson?

def instant? (v : Json) : Option Instant := (v.word? 64).map fun n => ⟨UInt64.ofNat n⟩

def hostOfJson? (v : Json) : Option HostSnapshot := do
  let id ← NodeId.ofJson? (← v.get? "id")
  let status ← BoothStatus.ofJson? (← v.get? "status")
  let description ← (← v.get? "description").str?
  let active ← ids? v "active"
  let waiting ← ids? v "waiting"
  let registered ← ids? v "registered"
  let offer ← v.optional? NodeId.ofJson? "pending_offer"
  let broadcasting ← (← v.get? "broadcast_enabled").bool?
  return { id, status, description, active, waiting, registered, offer, broadcasting }

def visitorOfJson? (v : Json) : Option VisitorSnapshot := do
  let id ← NodeId.ofJson? (← v.get? "id")
  let stage ← Stage.ofKey? (← (← v.get? "state").str?)
  let booth ← v.optional? NodeId.ofJson? "booth"
  let position ← (← v.get? "queue_position").byte?
  let total ← (← v.get? "queue_total").byte?
  let sessionStart ← v.optional? instant? "session_start"
  let visits ← ids? v "visits"
  return { id, stage, booth, position, total, sessionStart, visits }

def ofJson? (v : Json) : Option Snapshot :=
  match v.get? "role" with
  | some (.str "admin") => (hostOfJson? v).map host
  | some (.str "user") => (visitorOfJson? v).map visitor
  | _ => none

end Snapshot

namespace Notice

/-- The name of a notice and its fields. -/
def form : Notice → String × List (String × Json)
  | stateChanged before after =>
    ("state_changed", [("from", .str before.key), ("to", .str after.key)])
  | scanStarted => ("scan_started", [])
  | boothDiscovered booth rssi s =>
    ("booth_discovered",
      [("booth", booth.toJson), ("rssi", .num rssi.toInt), ("status", s.toJson)])
  | boothSelected booth score =>
    ("booth_selected", [("booth", booth.toJson), ("score", .num score)])
  | noBoothFound => ("no_booth_found", [])
  | boothOffered booth current capacity waiting description awaitingDecision =>
    ("booth_offered",
      [("booth", booth.toJson), ("current_count", .ofByte current), ("capacity", .ofByte capacity),
        ("waiting_count", .ofByte waiting), ("description", .str description),
        ("awaiting_decision", .bool awaitingDecision)])
  | registrationRefused booth => ("registration_refused", [("booth", booth.toJson)])
  | queuePosition booth position total =>
    ("queue_position",
      [("booth", booth.toJson), ("position", .ofByte position), ("total", .ofByte total)])
  | queueDropped booth => ("queue_dropped", [("booth", booth.toJson)])
  | sessionStarted booth => ("session_started", [("booth", booth.toJson)])
  | sessionEnded booth reason =>
    ("session_ended", [("booth", booth.toJson), ("reason", .str reason.key)])
  | exitConfirmed booth success =>
    ("exit_confirmed", [("booth", booth.toJson), ("success", .bool success)])
  | retriesExhausted booth stage =>
    ("retries_exhausted", [("booth", booth.toJson), ("stage", .str stage.key)])
  | chatReceived via sender text =>
    ("chat_received",
      [("via", via.toJson), ("sender", .ofOption NodeId.toJson sender), ("text", .str text)])
  | adminMessage booth text => ("admin_message", [("booth", booth.toJson), ("text", .str text)])
  | userAdmitted user => ("user_admitted", [("user", user.toJson)])
  | userQueued user position total =>
    ("user_queued",
      [("user", user.toJson), ("position", .ofByte position), ("total", .ofByte total)])
  | userRefused user => ("user_refused", [("user", user.toJson)])
  | userExited user => ("user_exited", [("user", user.toJson)])
  | sessionExpired user => ("session_expired", [("user", user.toJson)])
  | offerSent user => ("offer_sent", [("user", user.toJson)])
  | offerExpired user => ("offer_expired", [("user", user.toJson)])
  | broadcastToggled enabled => ("broadcast_toggled", [("enabled", .bool enabled)])
  | status snapshot => ("status", snapshot.fields)

def toJson (n : Notice) : Json := .obj (("event", .str n.form.1) :: n.form.2)

/-- The notice of a visitor with some name. -/
def visitorNotice? (name : String) (v : Json) : Option Notice := do
  let booth := (v.get? "booth").bind NodeId.ofJson?
  match name with
  | "state_changed" =>
    return stateChanged (← Stage.ofKey? (← (← v.get? "from").str?))
      (← Stage.ofKey? (← (← v.get? "to").str?))
  | "scan_started" => return scanStarted
  | "booth_discovered" =>
    return boothDiscovered (← booth) (Int16.ofInt (← (← v.get? "rssi").int?))
      (← BoothStatus.ofJson? (← v.get? "status"))
  | "booth_selected" => return boothSelected (← booth) (← (← v.get? "score").int?)
  | "no_booth_found" => return noBoothFound
  | "booth_offered" =>
    return boothOffered (← booth) (← (← v.get? "current_count").byte?)
      (← (← v.get? "capacity").byte?) (← (← v.get? "waiting_count").byte?)
      (← (← v.get? "description").str?) (← (← v.get? "awaiting_decision").bool?)
  | "registration_refused" => return registrationRefused (← booth)
  | "queue_position" =>
    return queuePosition (← booth) (← (← v.get? "position").byte?) (← (← v.get? "total").byte?)
  | "queue_dropped" => return queueDropped (← booth)
  | "session_started" => return sessionStarted (← booth)
  | "session_ended" =>
    return sessionEnded (← booth) (← EndReason.ofKey? (← (← v.get? "reason").str?))
  | "exit_confirmed" => return exitConfirmed (← booth) (← (← v.get? "success").bool?)
  | "retries_exhausted" =>
    return retriesExhausted (← booth) (← RetryStage.ofKey? (← (← v.get? "stage").str?))
  | "chat_received" =>
    return chatReceived (← NodeId.ofJson? (← v.get? "via"))
      (← v.optional? NodeId.ofJson? "sender") (← (← v.get? "text").str?)
  | "admin_message" => return adminMessage (← booth) (← (← v.get? "text").str?)
  | _ => none

/-- The notice of a booth host with some name. -/
def hostNotice? (name : String) (v : Json) : Option Notice := do
  let user := (v.get? "user").bind NodeId.ofJson?
  match name with
  | "user_admitted" => return userAdmitted (← user)
  | "user_queued" =>
    return userQueued (← user) (← (← v.get? "position").byte?) (← (← v.get? "total").byte?)
  | "user_refused" => return userRefused (← user)
  | "user_exited" => return userExited (← user)
  | "session_expired" => return sessionExpired (← user)
  | "offer_sent" => return offerSent (← user)
  | "offer_expired" => return offerExpired (← user)
  | "broadcast_toggled" => return broadcastToggled (← (← v.get? "enabled").bool?)
  | _ => none

def ofJson? (v : Json) : Option Notice := do
  match ← (← v.get? "event").str? with
  | "status" => return status (← Snapshot.ofJson? v)
  | name => (visitorNotice? name v).orElse fun _ => hostNotice? name v

end Notice

end BoothFloor
