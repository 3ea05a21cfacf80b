import BoothFloor.Settings
import BoothFloor.Settings.Environment

/-!
# Layers of settings

Settings come from a document and, above it, from the environment. A later layer replaces single values
and leaves the others alone.
-/

namespace BoothFloor

/-- Why settings cannot be loaded. -/
inductive LoadError where
  /-- A layer is no document, or a value is of the wrong kind. -/
  | unreadable
  /-- A variable's text would have to be cut inside a character. -/
  | torn
  | settings (error : SettingsError)
  deriving DecidableEq, Repr

namespace Settings

/-- Settings that can be used, from a table laid over the defaults. -/
def usable (es : Toml.Entries) : Except LoadError Settings :=
  match ofEntries es with
  | none => .error .unreadable
  | some s =>
    match s.fault? with
    | some e => .error (.settings e)
    | none => .ok s

/-- The pairs of a document, with all stand-ins in their places. -/
def entriesOf (text : String) : Except LoadError Toml.Entries :=
  match (Toml.parse text).bind Toml.settlePairs with
  | none => .error .unreadable
  | some es => .ok es

/-- Settings from a document alone. -/
def ofToml (text : String) : Except LoadError Settings := entriesOf text >>= usable

/-- Settings from a document, if there is one, and the environment, which is read in any case. -/
def load (document : Option String) (vars : Environment.Variables) : Except LoadError Settings :=
  match Environment.entries vars, document with
  | .error _, _ => .error .torn
  | .ok vars, none => usable vars
  | .ok vars, some text => do usable (Toml.overlay (← entriesOf text) vars)

end Settings

end BoothFloor
