import BoothFloor.Fault
import BoothFloor.Message.Wire
import BoothFloor.Time

/-!
# The rules of a floor

The limits and times that every node of a floor shares: which ids run booths, how many visitors a
booth takes, how long each party waits for the other. `Rules.fault?` says why rules cannot be played
by, if they cannot.
-/

namespace BoothFloor

/-- The rules that every node of a floor shares. Timeouts are in milliseconds, intervals in ticks. -/
structure Rules where
  hosts : IdRange := ⟨1, 3⟩
  boothCapacity : UInt64 := 2
  maxUsers : UInt64 := 20
  descriptionTemplate : String := "Booth \x7bid\x7d - Pop-up Store Experience"
  selectionDwell : Span := ⟨2000⟩
  connectTimeout : Span := ⟨3000⟩
  connectRetryLimit : UInt32 := 3
  registerTimeout : Span := ⟨3000⟩
  registerRetryLimit : UInt32 := 3
  sessionDuration : Span := ⟨60000⟩
  sessionGrace : Span := ⟨5000⟩
  queueReadyTimeout : Span := ⟨10000⟩
  scanInterval : UInt64 := 500
  sweepInterval : UInt64 := 100
  broadcastInterval : UInt64 := 1000
  broadcastEnabled : Bool := true
  autoAffirm : Bool := true
  frameDepth : UInt64 := 1
  intentDepth : UInt64 := 8
  deriving DecidableEq, Repr, Inhabited

/-- Why rules cannot be played by. -/
inductive RulesError where
  | idRange (first last : UInt8)
  | broadcastInRange
  | noCapacity
  | countsTooWide
  | tooFewUsers (maxUsers capacity : UInt64)
  | zeroDuration
  | zeroInterval
  | zeroDepth
  | longTemplate
  deriving DecidableEq, Repr

def RulesError.reason : RulesError → String
  | idRange first last =>
    "Invalid admin id range " ++ toString first ++ "..=" ++ toString last
  | broadcastInRange => "Admin id range must not include the broadcast id"
  | noCapacity => "Booth capacity must be greater than 0"
  | countsTooWide => "Booth capacity and max users must fit in a single byte"
  | tooFewUsers maxUsers capacity =>
    "Max users (" ++ toString maxUsers ++ ") must be at least the booth capacity (" ++
      toString capacity ++ ")"
  | zeroDuration => "Timer durations must be greater than 0"
  | zeroInterval => "Tick intervals must be greater than 0"
  | zeroDepth => "Queue depths must be greater than 0"
  | longTemplate => "Description template is too long"

namespace Rules

/-- Rules with short times, under which a whole visit takes seconds. -/
def brisk : Rules where
  selectionDwell := ⟨200⟩
  connectTimeout := ⟨300⟩
  connectRetryLimit := 2
  registerTimeout := ⟨300⟩
  registerRetryLimit := 2
  sessionDuration := ⟨5000⟩
  sessionGrace := ⟨500⟩
  queueReadyTimeout := ⟨1000⟩
  scanInterval := 10
  sweepInterval := 1
  broadcastInterval := 50
  frameDepth := 16

/-- Whether an id runs a booth. -/
def isHost (r : Rules) (id : NodeId) : Bool := r.hosts.contains id

/-- The time after which a visitor leaves a booth without being told to. Rules that can be played by do not promise
that the word holds it. -/
def clientLimit (r : Rules) : Except Fault Span := do
  return ⟨.ofNat (← Checked.add 64 r.sessionDuration.ms.toNat r.sessionGrace.ms.toNat)⟩

/-- Every marker for the booth's id in a template replaced by `value`, from left to right. -/
def fillTemplate (value : List Char) : List Char → List Char
  | '\x7b' :: 'i' :: 'd' :: '\x7d' :: rest => value ++ fillTemplate value rest
  | c :: rest => c :: fillTemplate value rest
  | [] => []

/-- A booth's description: the template with the booth's id, cut to the cap on descriptions. -/
def descriptionFor (r : Rules) (booth : NodeId) : String :=
  String.ofList
    (Text.fitting Wire.maxDescription
      (fillTemplate booth.text.toList r.descriptionTemplate.toList))

/-- The first reason, in this order, why the rules cannot be played by. -/
def fault? (r : Rules) : Option RulesError :=
  if r.hosts.first = 0 ∨ r.hosts.last < r.hosts.first then
    some (.idRange r.hosts.first r.hosts.last)
  else if r.hosts.last = 255 then some .broadcastInRange
  else if r.boothCapacity = 0 then some .noCapacity
  else if 255 < r.boothCapacity ∨ 255 < r.maxUsers then some .countsTooWide
  else if r.maxUsers < r.boothCapacity then some (.tooFewUsers r.maxUsers r.boothCapacity)
  else if r.selectionDwell = .zero ∨ r.connectTimeout = .zero ∨ r.registerTimeout = .zero ∨
      r.sessionDuration = .zero ∨ r.queueReadyTimeout = .zero then some .zeroDuration
  else if r.scanInterval = 0 ∨ r.sweepInterval = 0 ∨ r.broadcastInterval = 0 then
    some .zeroInterval
  else if r.frameDepth = 0 ∨ r.intentDepth = 0 then some .zeroDepth
  else if Wire.maxText < Text.byteSize r.descriptionTemplate then some .longTemplate
  else none

/-- Rules that can be played by. -/
def Valid (r : Rules) : Prop := r.fault? = none

instance (r : Rules) : Decidable r.Valid := inferInstanceAs (Decidable (r.fault? = none))

end Rules

end BoothFloor
