import BoothFloor.Text.Cut

/-!
# Files

Texts in folders, as a program finds and leaves them. A path is a row of names with slashes between
them, followed name by name from the working directory or, behind a leading slash, from the top. A walk
keeps the folders above the one it has reached, so that it can turn back, and so that what changes where
it ends changes the whole.
-/

namespace BoothFloor

/-- What a folder has under a name. -/
inductive Entry where
  | file (text : String)
  | folder (entries : List (String × Entry))
  /-- A device takes any text and keeps none; a full one takes none. -/
  | device (full : Bool)

/-- What a folder holds, by name. -/
abbrev Folder := List (String × Entry)

/-- All folders from the top, and the names that lead to the working directory. -/
structure Files where
  top : Folder := []
  here : List String := []
  deriving Inhabited

/-- Why a file cannot be written. -/
inductive FileFault where
  | missing
  | taken
  | notFolder
  | isFolder
  | noSpace
  | nameTooLong
  deriving DecidableEq, Repr

def FileFault.reason : FileFault → String
  | missing => "No such file or directory (os error 2)"
  | taken => "File exists (os error 17)"
  | notFolder => "Not a directory (os error 20)"
  | isFolder => "Is a directory (os error 21)"
  | noSpace => "No space left on device (os error 28)"
  | nameTooLong => "File name too long (os error 36)"

namespace Folder

/-- Put an entry under a name, in place of the one that was there. -/
def put (d : Folder) (name : String) (e : Entry) : Folder :=
  (name, e) :: d.filter (·.1 ≠ name)

/-- The bytes that a name may have. -/
def maxName : Nat := 255

/-- The entry under a name; nothing is looked for under one that is too long. -/
def look (d : Folder) (name : String) : Except FileFault (Option Entry) :=
  if maxName < Text.byteSize name then .error .nameTooLong else .ok (d.lookup name)

end Folder

/-- A folder that a walk has reached, and those above it, each without its changes below and with the
name that the walk took. -/
structure Spot where
  folder : Folder
  above : List (String × Folder) := []
  deriving Inhabited

namespace Spot

def enter (s : Spot) (name : String) (d : Folder) : Spot := ⟨d, (name, s.folder) :: s.above⟩

/-- The folder above; the top is above itself. -/
def leave (s : Spot) : Spot :=
  match s.above with
  | [] => s
  | (name, d) :: rest => ⟨d.put name (.folder s.folder), rest⟩

/-- The top, with a folder put where the names of those above lead. -/
def topOf (d : Folder) : List (String × Folder) → Folder
  | [] => d
  | (name, e) :: rest => topOf (e.put name (.folder d)) rest

def top (s : Spot) : Folder := topOf s.folder s.above

/-- Enter the folders under some names; one that is not there is empty. -/
def descend (s : Spot) : List String → Spot
  | [] => s
  | name :: rest =>
    match s.folder.lookup name with
    | some (.folder d) => (s.enter name d).descend rest
    | _ => (s.enter name []).descend rest

/-- Where a path ends. -/
inductive Goal where
  /-- A folder, by dots or for want of a name. -/
  | folder (spot : Spot)
  /-- A name in a folder, perhaps with slashes behind it. -/
  | name (spot : Spot) (name : String) (slashes : Bool)

/-- Whether a name stays where it is. -/
def isIdle (name : String) : Bool := name == "" || name == "."

/-- Follow some names. All but the last one have to lead to folders. -/
def walk (s : Spot) : List String → Except FileFault Goal
  | [] => .ok (.folder s)
  | name :: rest =>
    if isIdle name then s.walk rest
    else if name = ".." then s.leave.walk rest
    else if rest.all (· == "") then .ok (.name s name !rest.isEmpty)
    else
      match s.folder.look name with
      | .ok (some (.folder d)) => (s.enter name d).walk rest
      | .ok (some _) => .error .notFolder
      | .ok none => .error .missing
      | .error e => .error e

/-- Make the folders along some names where they are absent; `made` says whether one was. As long as none
was, the row is tried as a whole, and a file stands on the way to its last folder; afterwards each
folder is made by itself, and a file stands in its place. -/
def makeFolders (made : Bool) (s : Spot) : List String → Except FileFault Spot
  | [] => .ok s
  | name :: rest =>
    if name = ".." then s.leave.makeFolders made rest
    else
      match s.folder.look name with
      | .ok (some (.folder d)) => (s.enter name d).makeFolders made rest
      | .ok (some _) => .error (if made || rest.isEmpty then .taken else .notFolder)
      | .ok none => (s.enter name []).makeFolders true rest
      | .error e => .error e

end Spot

namespace Files

/-- The names of a path; an empty one stands before the first, behind the last and between two
slashes. -/
def names (path : String) : List String := path.splitOn "/"

/-- The names that lead to the folder a path's last name is in. -/
def parentNames (path : String) : List String :=
  ((((names path).reverse.dropWhile Spot.isIdle).drop 1).dropWhile Spot.isIdle).reverse

/-- A path of this many bytes leads nowhere. -/
def pathLimit : Nat := 4096

def tooLong (path : String) : Bool := pathLimit ≤ Text.byteSize path

/-- Where a path begins. -/
def start (f : Files) (path : String) : Spot :=
  if path.startsWith "/" then ⟨f.top, []⟩ else (⟨f.top, []⟩ : Spot).descend f.here

/-- The files with the changes made on a walk. -/
def keep (f : Files) (s : Spot) : Files := { f with top := s.top }

/-- What a path names; the empty path names nothing, and a name with slashes behind it a folder. -/
def find (f : Files) (path : String) : Option Entry :=
  if path.isEmpty || tooLong path then none
  else
    match (f.start path).walk (names path) with
    | .ok (.folder s) => some (.folder s.folder)
    | .ok (.name s name slashes) =>
      match s.folder.look name with
      | .ok (some (.folder d)) => some (.folder d)
      | .ok (some e) => if slashes then none else some e
      | _ => none
    | .error _ => none

/-- The text that is read from the end of a path. -/
def read? (f : Files) (path : String) : Option String :=
  match f.find path with
  | some (.file text) => some text
  | some (.device false) => some ""
  | _ => none

/-- Make the folders on the way to the last name of a path. -/
def makeParents (f : Files) (path : String) : Except FileFault Files :=
  let way := parentNames path
  if tooLong (String.intercalate "/" way) then .error .nameTooLong
  else
    match (f.start path).makeFolders false (way.filter (!Spot.isIdle ·)) with
    | .ok s => .ok (f.keep s)
    | .error e => .error e

/-- Write a text to the end of a path. -/
def write (f : Files) (path text : String) : Except FileFault Files :=
  if path.isEmpty then .error .missing
  else if tooLong path then .error .nameTooLong
  else
    match (f.start path).walk (names path) with
    | .error e => .error e
    | .ok (.folder _) | .ok (.name _ _ true) => .error .isFolder
    | .ok (.name s name false) =>
      match s.folder.look name with
      | .error e => .error e
      | .ok (some (.folder _)) => .error .isFolder
      | .ok (some (.device full)) => if full then .error .noSpace else .ok f
      | .ok _ => .ok (f.keep { s with folder := s.folder.put name (.file text) })

end Files

end BoothFloor
