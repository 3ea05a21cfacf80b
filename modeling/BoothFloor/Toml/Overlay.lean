import BoothFloor.Toml.Value

/-!
# Tables over tables

How the values of one source are laid over those of another, and how a table with a stand-in key gives
way to the value under that key before.
-/

namespace BoothFloor.Toml

mutual

/-- What a key has after a value is laid over the one it had: tables are laid over tables pair by
pair, everything else replaces. -/
def overlayValue (old : Option Value) : Value → Value
  | .table origin es =>
    match old with
    | some (.table _ base) => .table origin (overlay base es)
    | _ => .table origin es
  | v => v

/-- Lay some pairs over others. -/
def overlay (base : Entries) : List (String × Value) → Entries
  | [] => base
  | pair :: rest => overlay (overlayPair base pair) rest

def overlayPair (base : Entries) : String × Value → Entries
  | (key, v) =>
    let v := overlayValue (base.lookup key) v
    if (base.lookup key).isSome then base.put key v else base ++ [(key, v)]

end

/-- The key of the value that stands for its table. -/
def standInKey : String := "___figment_value_value"

/-- A key that no table below the top may have. -/
def reservedKey : String := "___figment_value_id"

/-- The value that a table with these pairs stands for: the stand-in, if it has one, and otherwise
itself. -/
def standFor (origin : Origin) (es : Entries) : Value :=
  (es.lookup standInKey).getD (.table origin es)

mutual

/-- A value with all stand-ins in the place of their tables. -/
def settle : Value → Option Value
  | .table origin es =>
    if (es.lookup reservedKey).isSome then none else (settlePairs es).map (standFor origin)
  | .array tables items => (settleItems items).map (.array tables)
  | v => some v

def settleItems : List Value → Option (List Value)
  | [] => some []
  | v :: rest => do return (← settle v) :: (← settleItems rest)

/-- The pairs of a table that stands for itself, settled. -/
def settlePairs : List (String × Value) → Option Entries
  | [] => some []
  | pair :: rest => do return (← settlePair pair) :: (← settlePairs rest)

def settlePair : String × Value → Option (String × Value)
  | (key, v) => (settle v).map ((key, ·))

end

end BoothFloor.Toml
