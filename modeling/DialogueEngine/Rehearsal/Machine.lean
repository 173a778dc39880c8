import DialogueEngine.Command.Errand
import DialogueEngine.Rehearsal.Server

/-!
A machine in memory for trying out commands: a working directory with files, databases kept as
their rows, and servers that follow scripts.
-/

namespace DialogueEngine.Rehearsal

/-- A machine in memory. -/
structure Machine where
  /-- The paths of the files, with their texts. -/
  files : List (String × String)
  /-- The rows of the databases, by their paths below the working directory. -/
  databases : Table (List Row)
  cast : Cast
  clock : Clock

namespace Machine

/-- The working directory, which is the home directory as well. -/
def home : String := "/work/place"

/-- The parts of a path below the working directory; none for a path outside of it. -/
def parts? (path : String) : Option (List String) :=
  let inside := match Text.dropFront? (home ++ "/").toList path.toList with
    | some rest => rest
    | none => if path = home then [] else path.toList
  if inside.head? = some '/' then none
  else
    let pieces := Text.splitAtMarker ['/'] (by simp) inside
    some (pieces.foldl (fun parts piece =>
      let part := String.ofList piece
      if part = "" || part = "." then parts
      else if part = ".." then parts.dropLast
      else parts ++ [part]) [])

def paths (m : Machine) : List (List String) :=
  (m.files.map (·.1) ++ m.databases.keys).filterMap parts?

def isThere (m : Machine) (path : String) : Bool :=
  match parts? path with
  | none => ["/", "/tmp", "/etc", "/bin", "/usr", "/home"].contains path
  | some parts => parts.isEmpty || m.paths.any fun p => parts.isPrefixOf p

def file? (m : Machine) (parts : List String) : Option String :=
  (m.files.find? fun f => parts? f.1 = some parts).map (·.2)

def readText (m : Machine) (path : String) : Except String String :=
  match (parts? path).bind m.file? with
  | some text => .ok text
  | none =>
    if m.isThere path then .error "Is a directory (os error 21)"
    else if m.paths.any fun p => ((parts? path).map p.isPrefixOf).getD false then
      .error "Not a directory (os error 20)"
    else .error "No such file or directory (os error 2)"

/-- What a database goes by; none for one that is not kept. -/
def databaseKey? (path : String) : Option String :=
  if path = "" || path = ":memory:" then none else (parts? path).map (Text.join "/")

/-- Why the directories that a path leads through cannot be made: one of them is a file, the last
or an earlier one. -/
def blocked? (m : Machine) (path : String) : Option String := do
  let above := (← parts? path).dropLast
  if m.paths.contains above then some "File exists (os error 17)"
  else if m.paths.any (·.isPrefixOf above) then some "Not a directory (os error 20)"
  else none

def loadRows (m : Machine) (path : String) : Except String (List Row) :=
  match databaseKey? path with
  | none => .ok []
  | some key =>
    match m.databases.get? key, (parts? path).bind m.file?, m.blocked? path with
    | some rows, _, _ => .ok rows
    | none, some text, _ => if text = "" then .ok [] else .error "file is not a database"
    | none, none, some reason => .error ("Failed to create db directory: " ++ reason)
    | none, none, none =>
      if m.isThere path then .error ("unable to open database file: " ++ path) else .ok []

def saveRows (path : String) (rows : List Row) (m : Machine) : Machine :=
  match databaseKey? path with
  | none => m
  | some key => { m with databases := m.databases.insert key rows }

def answer (q : MachineRequest) (p : Pool) (m : Machine) : MachineReply q × Pool × Machine :=
  match q with
  | .isThere path => (m.isThere path, p, m)
  | .readText path => (m.readText path, p, m)
  | .loadRows path => (m.loadRows path, p, m)
  | .saveRows path rows => ((), p, m.saveRows path rows)
  | .clock => (m.clock, p, m)
  | .server request =>
    let (reply, p, cast) := m.cast.answer request p
    (reply, p, { m with cast })

def run (arguments : List String) (m : Machine) : (Report × Nat) × Machine :=
  let env : Environment := Table.ofList [("HOME", home)]
  let (outcome, _, m) := (Errand.ofArguments env arguments (.ofServers ∅)).answered answer m
  (outcome, m)

end Machine

end DialogueEngine.Rehearsal
