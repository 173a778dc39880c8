import DialogueEngine.Command.Errand
import DialogueEngine.Store.Written

/-!
The program. It answers what a command asks with the files of the machine; a database is a file of
rows. It starts no servers and has no network.
-/

namespace DialogueEngine.Console

/-- What the system says about a failure to read a file. -/
def reason : IO.Error → String
  | .noFileOrDirectory .. => "No such file or directory (os error 2)"
  | .permissionDenied .. => "Permission denied (os error 13)"
  | e => toString e

def isThere (path : String) : IO Bool := do
  try
    let _ ← IO.FS.Handle.mk path .read
    return true
  catch _ => return false

def readText (path : String) : IO (Except String String) := do
  try
    return .ok (← IO.FS.readFile path)
  catch e => return .error (reason e)

/-- The directory that a path leads into; empty for the working directory. -/
def directory (path : String) : String :=
  String.ofList ((path.toList.reverse.dropWhile (· ≠ '/')).drop 1).reverse

/-- Reads a database; a missing one has no rows. -/
def loadRows (path : String) : IO (Except String (List Row)) := do
  if ← isThere path then
    match ← readText path with
    | .ok text => return Row.ofFileText text
    | .error e => return .error e
  else return .ok []

/-- Writes a database. -/
def saveRows (path : String) (rows : List Row) : IO Unit := do
  let parent := directory path
  if parent ≠ "" then IO.FS.createDirAll parent
  IO.FS.writeFile path (Row.fileText rows)

/-- A clock that is set by the time a file made now bears. -/
def clock : IO Clock := do
  let (_, path) ← IO.FS.createTempFile
  let time := (← path.metadata).modified
  IO.FS.removeFile path
  let seed := (← IO.getRandomBytes 12).toList.foldl (fun n b => n * 256 + b.toNat) 0
  return ⟨time.sec.toNat * 1000000000 + time.nsec.toNat, seed, 0⟩

def server : (q : ServerRequest) → ServerReply q
  | .launch .. => .error (.spawn "programs are not started here")
  | .dial .. => .error (.greeting "there is no network here")
  | .listing _ => .error "Transport closed"
  | .call .. => .failed "Transport closed"
  | .close _ => ()

def reply : (q : MachineRequest) → IO (MachineReply q)
  | .isThere path => isThere path
  | .readText path => readText path
  | .loadRows path => loadRows path
  | .saveRows path rows => saveRows path rows
  | .clock => clock
  | .server request => return server request

def carryOut {α : Type} : Interaction Pool MachineRequest MachineReply α → IO α
  | .done _ a => return a
  | .ask p q resume => do
    let answer ← reply q
    carryOut (resume answer p)

def environment : IO Environment := do
  match ← readText "/proc/self/environ" with
  | .ok text =>
    return Table.ofList ((text.splitOn "\x00").filterMap fun entry =>
      match entry.splitOn "=" with
      | name :: rest@(_ :: _) => some (name, Text.join "=" rest)
      | _ => none)
  | .error _ => return Table.ofList ((← IO.getEnv "HOME").toList.map fun home => ("HOME", home))

/-- Carries out what arguments ask for, prints what comes of it and gives the status to end with. -/
def run (arguments : List String) : IO UInt32 := do
  let env ← environment
  let (report, status) ← carryOut (Errand.ofArguments env arguments (.ofServers ∅))
  for line in report.lines do
    IO.println line
  if let some f := report.failure then
    IO.eprintln ("Error: " ++ f.message)
  return UInt32.ofNat status

end DialogueEngine.Console

def main (arguments : List String) : IO UInt32 := DialogueEngine.Console.run arguments
