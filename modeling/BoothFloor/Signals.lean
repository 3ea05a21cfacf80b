/-!
# Signals

Five one-bit signals through which producers and timers wake a node. Raising a signal that is
already set changes nothing, so several causes may be answered by one wake-up.
-/

namespace BoothFloor

inductive Signal where
  | messageArrived
  | sendConfirmed
  | keyboardIntent
  | selectionTimeout
  | retryTimeout
  deriving DecidableEq, Repr, Inhabited

namespace Signal

/-- Every signal, in the order in which pending ones are listed. -/
def all : List Signal :=
  [messageArrived, sendConfirmed, keyboardIntent, selectionTimeout, retryTimeout]

def text : Signal → String
  | messageArrived => "message-arrived"
  | sendConfirmed => "send-confirmed"
  | keyboardIntent => "keyboard-intent"
  | selectionTimeout => "selection-timeout"
  | retryTimeout => "retry-timeout"

end Signal

/-- Which signals are set. -/
structure Signals where
  messageArrived : Bool := false
  sendConfirmed : Bool := false
  keyboardIntent : Bool := false
  selectionTimeout : Bool := false
  retryTimeout : Bool := false
  deriving DecidableEq, Repr, Inhabited

namespace Signals

def isSet (s : Signals) : Signal → Bool
  | .messageArrived => s.messageArrived
  | .sendConfirmed => s.sendConfirmed
  | .keyboardIntent => s.keyboardIntent
  | .selectionTimeout => s.selectionTimeout
  | .retryTimeout => s.retryTimeout

/-- The register with one signal set to a value. -/
def put (s : Signals) (g : Signal) (value : Bool) : Signals :=
  match g with
  | .messageArrived => { s with messageArrived := value }
  | .sendConfirmed => { s with sendConfirmed := value }
  | .keyboardIntent => { s with keyboardIntent := value }
  | .selectionTimeout => { s with selectionTimeout := value }
  | .retryTimeout => { s with retryTimeout := value }

def raise (s : Signals) (g : Signal) : Signals := s.put g true

def clear (s : Signals) (g : Signal) : Signals := s.put g false

def any (s : Signals) : Bool := Signal.all.any s.isSet

/-- The set signals in the order of `Signal.all`. -/
def pending (s : Signals) : List Signal := Signal.all.filter s.isSet

@[simp]
theorem isSet_put_self (s : Signals) (g : Signal) (v : Bool) : (s.put g v).isSet g = v := by
  cases g <;> rfl

theorem isSet_put_of_ne (s : Signals) {g h : Signal} (v : Bool) (ne : h ≠ g) :
    (s.put g v).isSet h = s.isSet h := by
  cases g <;> cases h <;> first | rfl | exact absurd rfl ne

/-- What a signal was is forgotten when it is put to a value. -/
theorem put_put (s : Signals) (g : Signal) (v w : Bool) : (s.put g v).put g w = s.put g w := by
  cases g <;> rfl

/-- Two signals can be put to values in any order. -/
theorem put_comm (s : Signals) {g h : Signal} (ne : g ≠ h) (v w : Bool) :
    (s.put g v).put h w = (s.put h w).put g v := by
  cases g <;> cases h <;> first | rfl | exact absurd rfl ne

/-- Nothing changes when a signal is put to the value that it has. -/
theorem put_of_isSet {s : Signals} {g : Signal} {v : Bool} (h : s.isSet g = v) : s.put g v = s := by
  subst h
  cases g <;> rfl

@[ext]
theorem ext_isSet {s t : Signals} (h : ∀ g, s.isSet g = t.isSet g) : s = t := by
  cases s; cases t
  simpa [isSet] using
    And.intro (h .messageArrived) <| And.intro (h .sendConfirmed) <| And.intro (h .keyboardIntent) <|
      And.intro (h .selectionTimeout) (h .retryTimeout)

end Signals

end BoothFloor
