import BoothFloor.Program

/-!
# The executable

Finds on disk and in the environment what a run depends on, and carries out on disk what the run does.
-/

namespace BoothFloor

/-- The number under which the operating system reports an error, zero if there is none. -/
def errorNumber : IO.Error → UInt32
  | .alreadyExists _ n _ | .noFileOrDirectory _ n _ | .inappropriateType _ n _
  | .invalidArgument _ n _ | .resourceExhausted _ n _ => n
  | _ => 0

/-- Why a file could not be written. -/
def faultOf (e : IO.Error) : FileFault :=
  match errorNumber e with
  | 17 => .taken
  | 20 => .notFolder
  | 21 => .isFolder
  | 28 => .noSpace
  | 36 => .nameTooLong
  | _ => .missing

/-- What a path names on disk; what a folder holds is not asked for. -/
def findOnDisk (path : String) : IO (Option Entry) := do
  try
    let text ← IO.FS.readFile path
    return some (.file text)
  catch e =>
    return if errorNumber e = 21 then some (.folder []) else none

/-- Make a folder unless it is there. -/
def makeFolderOnDisk (path : String) : IO Unit := do
  try IO.FS.createDir path
  catch e =>
    match ← findOnDisk path with
    | some (.folder _) => return ()
    | _ => throw e

/-- Make the folder at the end of a row of names, which is given from its end, and those on the way if
the last one cannot be made without. -/
def makeFoldersOnDisk : List String → IO Unit
  | [] => return ()
  | name :: above => do
    let path := String.intercalate "/" (name :: above).reverse
    try makeFolderOnDisk path
    catch e =>
      if errorNumber e = 2 then
        makeFoldersOnDisk above
        makeFolderOnDisk path
      else throw e

/-- Write settings to a path, making the folders on the way. -/
def saveToDisk (path : String) (s : Settings) : IO (Except CommandError Unit) := do
  try
    makeFoldersOnDisk (Files.parentNames path).reverse
    match s.toToml? with
    | none => return .error .tooLarge
    | some text =>
      IO.FS.writeFile path text
      return .ok ()
  catch e => return .error (.file (faultOf e))

/-- The variables of the environment, which end with a NUL each. -/
def readEnvironment : IO Environment.Variables := do
  try
    let block ← IO.FS.readBinFile "/proc/self/environ"
    return Environment.ofBlock (Utf8.decode block.toList)
  catch _ => return []

/-- Say how a run ends and give its exit code. -/
def finish (ending : Ending) : IO UInt32 := do
  (← IO.getStderr).putStr ending.errorText
  return ending.exitCode

/-- Carry out what a run does. -/
def perform (plan : Except Ending Effect) : IO UInt32 := do
  match plan with
  | .ok (.print text) =>
    (← IO.getStdout).putStr text
    finish .done
  | .ok (.save path settings) =>
    match ← saveToDisk path settings with
    | .ok () => finish .done
    | .error e => finish (.failed (.command e))
  | .error ending => finish ending

/-- A run of the program on the words behind its name. -/
def runProgram (words : List String) : IO UInt32 := do
  let found ← match Program.pathFor words with
    | some path => findOnDisk path
    | none => pure none
  let vars ← readEnvironment
  let random ← IO.rand 0 (UInt64.size - 1)
  perform (Program.plan words found vars (UInt64.ofNat random))

end BoothFloor

def main (words : List String) : IO UInt32 := BoothFloor.runProgram words
