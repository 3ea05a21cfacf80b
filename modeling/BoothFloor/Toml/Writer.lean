import BoothFloor.Toml.Quoted

/-!
# Writing configuration files

Sections of keys and plain values, one pair to a line and an empty line between sections. An integer
that a document cannot hold has no written form.
-/

namespace BoothFloor.Toml

/-- The written form of a plain value. -/
def writeValue? : Value → Option String
  | .text s => some (quote s)
  | .integer n => (word? n).map toString
  | .boolean b => some (if b then "true" else "false")
  | _ => none

/-- The line of one pair. -/
def writePair? (pair : String × Value) : Option String :=
  (writeValue? pair.2).map fun v => pair.1 ++ " = " ++ v ++ "\n"

/-- A header and the pairs under it. -/
def writeSection? (s : String × Entries) : Option String :=
  (s.2.mapM writePair?).map fun lines => "[" ++ s.1 ++ "]\n" ++ String.join lines

/-- Some sections, each with its name. -/
def writeSections? (sections : List (String × Entries)) : Option String :=
  (sections.mapM writeSection?).map (String.intercalate "\n")

end BoothFloor.Toml
