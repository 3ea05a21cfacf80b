import BoothFloor.Address
import BoothFloor.Node
import BoothFloor.Toml.Writer

/-!
# Settings of the program

The rules of the floor, the addresses of the nodes and how a node is run. Settings are laid over the
defaults key by key, and `Settings.fault?` says why settings cannot be used, if they cannot.
-/

namespace BoothFloor

/-- Where nodes listen and how well they are heard. -/
structure LinkSettings where
  host : String := "127.0.0.1"
  basePort : UInt16 := 47000
  maxNodeId : UInt8 := 16
  txRssi : Int8 := -60
  snr : Int8 := 8
  deriving DecidableEq, Repr, Inhabited

/-- How a node is run. -/
structure RuntimeSettings where
  tickIntervalMs : UInt64 := 10
  console : Bool := true
  deriving DecidableEq, Repr, Inhabited

structure Settings where
  rules : Rules := {}
  link : LinkSettings := {}
  runtime : RuntimeSettings := {}
  deriving DecidableEq, Repr, Inhabited

/-- Why settings cannot be used. -/
inductive SettingsError where
  | rules (error : RulesError)
  | zeroTick
  | maxNodeIdRange (id : UInt8)
  | unreachableHost (maxNodeId last : UInt8)
  | portOverflow (basePort : UInt16) (maxNodeId : UInt8)
  | nodeIdRange (id maxNodeId : UInt8)
  | missingFile (path : String)
  deriving DecidableEq, Repr

/-- Why a node has no address. -/
inductive AddressError where
  | noPort (id : NodeId)
  | invalid (id : NodeId)
  deriving DecidableEq, Repr

def AddressError.reason : AddressError → String
  | noPort id => "No port for node " ++ id.text
  | invalid id => "Invalid address for node " ++ id.text ++ ": invalid socket address syntax"

namespace SettingsError

def reason : SettingsError → String
  | rules error => error.reason
  | zeroTick => "Tick interval must be greater than 0"
  | maxNodeIdRange id => "max_node_id " ++ toString id ++ " is outside 1..=254"
  | unreachableHost maxNodeId last =>
    "max_node_id " ++ toString maxNodeId ++ " leaves admin " ++ toString last ++ " unreachable"
  | portOverflow basePort maxNodeId =>
    "base_port " ++ toString basePort ++ " overflows for node " ++ toString maxNodeId
  | nodeIdRange id maxNodeId =>
    "Node id " ++ toString id ++ " is outside 1..=" ++ toString maxNodeId
  | missingFile path => "Configuration file " ++ path ++ " does not exist"

def message (e : SettingsError) : String := "Configuration error: " ++ e.reason

end SettingsError

namespace LinkSettings

/-- The port of a node, if there is one. -/
def port? (l : LinkSettings) (id : NodeId) : Option Nat :=
  let port := l.basePort.toNat + id.toNat
  if port < 65536 then some port else none

/-- The address at which a node listens. -/
def address (l : LinkSettings) (id : NodeId) : Except AddressError (IpAddress × Nat) :=
  match l.port? id with
  | none => .error (.noPort id)
  | some port =>
    match Address.parse l.host.toList with
    | some ip => .ok (ip, port)
    | none => .error (.invalid id)

end LinkSettings

namespace Settings

/-- The first reason, in this order, why the settings cannot be used. -/
def fault? (s : Settings) : Option SettingsError :=
  match s.rules.fault? with
  | some e => some (.rules e)
  | none =>
    if s.runtime.tickIntervalMs = 0 then some .zeroTick
    else if s.link.maxNodeId = 0 ∨ s.link.maxNodeId = 255 then
      some (.maxNodeIdRange s.link.maxNodeId)
    else if s.link.maxNodeId < s.rules.hosts.last then
      some (.unreachableHost s.link.maxNodeId s.rules.hosts.last)
    else if 65535 < s.link.basePort.toNat + s.link.maxNodeId.toNat then
      some (.portOverflow s.link.basePort s.link.maxNodeId)
    else none

/-- The node with a given id, if the link has one. -/
def nodeId (s : Settings) (id : UInt8) : Except SettingsError NodeId :=
  if id = 0 ∨ s.link.maxNodeId < id then .error (.nodeIdRange id s.link.maxNodeId) else .ok ⟨id⟩

/-! ### As tables -/

def rulesEntries (r : Rules) : Toml.Entries :=
  [("admin_id_start", .integer r.hosts.first.toNat),
    ("admin_id_end", .integer r.hosts.last.toNat),
    ("booth_capacity", .integer r.boothCapacity.toNat),
    ("max_users", .integer r.maxUsers.toNat),
    ("description_template", .text r.descriptionTemplate),
    ("selection_dwell_ms", .integer r.selectionDwell.ms.toNat),
    ("connect_timeout_ms", .integer r.connectTimeout.ms.toNat),
    ("connect_retry_limit", .integer r.connectRetryLimit.toNat),
    ("register_timeout_ms", .integer r.registerTimeout.ms.toNat),
    ("register_retry_limit", .integer r.registerRetryLimit.toNat),
    ("session_duration_ms", .integer r.sessionDuration.ms.toNat),
    ("session_grace_ms", .integer r.sessionGrace.ms.toNat),
    ("queue_ready_timeout_ms", .integer r.queueReadyTimeout.ms.toNat),
    ("scan_interval_ticks", .integer r.scanInterval.toNat),
    ("sweep_interval_ticks", .integer r.sweepInterval.toNat),
    ("broadcast_interval_ticks", .integer r.broadcastInterval.toNat),
    ("broadcast_enabled", .boolean r.broadcastEnabled),
    ("auto_affirm", .boolean r.autoAffirm),
    ("rx_queue_depth", .integer r.frameDepth.toNat),
    ("intent_queue_depth", .integer r.intentDepth.toNat)]

def linkEntries (l : LinkSettings) : Toml.Entries :=
  [("host", .text l.host), ("base_port", .integer l.basePort.toNat),
    ("max_node_id", .integer l.maxNodeId.toNat), ("tx_rssi", .integer l.txRssi.toInt),
    ("snr", .integer l.snr.toInt)]

def runtimeEntries (r : RuntimeSettings) : Toml.Entries :=
  [("tick_interval_ms", .integer r.tickIntervalMs.toNat), ("console", .boolean r.console)]

/-- The settings section by section. -/
def sections (s : Settings) : List (String × Toml.Entries) :=
  [("protocol", rulesEntries s.rules), ("link", linkEntries s.link),
    ("runtime", runtimeEntries s.runtime)]

/-- The settings as a document; a number above the greatest one of a document prevents it. -/
def toToml? (s : Settings) : Option String := Toml.writeSections? s.sections

/-- What a document with the default settings begins with. -/
def exampleHeading : String :=
  "# Pop-in node configuration\n" ++
    "# Environment overrides use POPIN_<SECTION>__<KEY>, e.g. POPIN_LINK__TX_RSSI=-40\n\n"

/-- The default settings as a document with a heading. -/
def exampleText : String :=
  match toToml? {} with
  | some content => exampleHeading ++ content
  | none => "# Failed to generate example config"

/-! ### From tables -/

/-- The number in a value, if it is whole, not negative and of at most `bits` bits. -/
def unsigned? (bits : Nat) : Toml.Value → Option Nat
  | .integer n => if 0 ≤ n ∧ n < Int.pow 2 bits then some n.toNat else none
  | _ => none

/-- The number in a value, if it is whole and of eight bits with a sign. -/
def signed8? : Toml.Value → Option Int8
  | .integer n => if -128 ≤ n ∧ n < 128 then some (Int8.ofInt n) else none
  | _ => none

def byte? (v : Toml.Value) : Option UInt8 := (unsigned? 8 v).map UInt8.ofNat

def word16? (v : Toml.Value) : Option UInt16 := (unsigned? 16 v).map UInt16.ofNat

def word32? (v : Toml.Value) : Option UInt32 := (unsigned? 32 v).map UInt32.ofNat

def word64? (v : Toml.Value) : Option UInt64 := (unsigned? 64 v).map UInt64.ofNat

def span? (v : Toml.Value) : Option Span := (word64? v).map Span.mk

def boolean? : Toml.Value → Option Bool
  | .boolean b => some b
  | _ => none

def text? : Toml.Value → Option String
  | .text s => some s
  | _ => none

/-- The value under a key, or the default where the key is missing. -/
def field {α : Type} (es : Toml.Entries) (key : String) (read : Toml.Value → Option α)
    (default : α) : Option α :=
  match es.lookup key with
  | some v => read v
  | none => some default

/-- The pairs of a section: a table's own, or those of an array that gives the values in the order of
the keys. A date has none of the keys. -/
def sectionOf (keys : List String) : Option Toml.Value → Option Toml.Entries
  | none => some []
  | some (.table _ es) => some es
  | some (.array _ items) => some (keys.zip items)
  | some (.datetime _) => some []
  | some _ => none

def rulesOf (v : Option Toml.Value) : Option Rules := do
  let d : Rules := {}
  let es ← sectionOf ((rulesEntries d).map (·.1)) v
  let first ← field es "admin_id_start" byte? d.hosts.first
  let last ← field es "admin_id_end" byte? d.hosts.last
  let boothCapacity ← field es "booth_capacity" word64? d.boothCapacity
  let maxUsers ← field es "max_users" word64? d.maxUsers
  let descriptionTemplate ← field es "description_template" text? d.descriptionTemplate
  let selectionDwell ← field es "selection_dwell_ms" span? d.selectionDwell
  let connectTimeout ← field es "connect_timeout_ms" span? d.connectTimeout
  let connectRetryLimit ← field es "connect_retry_limit" word32? d.connectRetryLimit
  let registerTimeout ← field es "register_timeout_ms" span? d.registerTimeout
  let registerRetryLimit ← field es "register_retry_limit" word32? d.registerRetryLimit
  let sessionDuration ← field es "session_duration_ms" span? d.sessionDuration
  let sessionGrace ← field es "session_grace_ms" span? d.sessionGrace
  let queueReadyTimeout ← field es "queue_ready_timeout_ms" span? d.queueReadyTimeout
  let scanInterval ← field es "scan_interval_ticks" word64? d.scanInterval
  let sweepInterval ← field es "sweep_interval_ticks" word64? d.sweepInterval
  let broadcastInterval ← field es "broadcast_interval_ticks" word64? d.broadcastInterval
  let broadcastEnabled ← field es "broadcast_enabled" boolean? d.broadcastEnabled
  let autoAffirm ← field es "auto_affirm" boolean? d.autoAffirm
  let frameDepth ← field es "rx_queue_depth" word64? d.frameDepth
  let intentDepth ← field es "intent_queue_depth" word64? d.intentDepth
  return {
    hosts := ⟨first, last⟩
    boothCapacity, maxUsers, descriptionTemplate, selectionDwell, connectTimeout
    connectRetryLimit, registerTimeout, registerRetryLimit, sessionDuration, sessionGrace
    queueReadyTimeout, scanInterval, sweepInterval, broadcastInterval, broadcastEnabled
    autoAffirm, frameDepth, intentDepth }

def linkOf (v : Option Toml.Value) : Option LinkSettings := do
  let d : LinkSettings := {}
  let es ← sectionOf ((linkEntries d).map (·.1)) v
  let host ← field es "host" text? d.host
  let basePort ← field es "base_port" word16? d.basePort
  let maxNodeId ← field es "max_node_id" byte? d.maxNodeId
  let txRssi ← field es "tx_rssi" signed8? d.txRssi
  let snr ← field es "snr" signed8? d.snr
  return { host, basePort, maxNodeId, txRssi, snr }

def runtimeOf (v : Option Toml.Value) : Option RuntimeSettings := do
  let d : RuntimeSettings := {}
  let es ← sectionOf ((runtimeEntries d).map (·.1)) v
  let tickIntervalMs ← field es "tick_interval_ms" word64? d.tickIntervalMs
  let console ← field es "console" boolean? d.console
  return { tickIntervalMs, console }

/-- The settings that a table gives, if all its known keys have values of the right kind. -/
def ofEntries (es : Toml.Entries) : Option Settings := do
  let rules ← rulesOf (es.lookup "protocol")
  let link ← linkOf (es.lookup "link")
  let runtime ← runtimeOf (es.lookup "runtime")
  return { rules, link, runtime }

end Settings

end BoothFloor
