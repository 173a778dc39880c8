import DialogueEngine.Engine.Situation

/-!
The connections to configured servers. A connection is opened when it is asked for and kept under
the server's name with the environment it was opened with. A call that finds the connection gone is
made once more over a new one. The pool asks the machine to reach servers and to talk to them, and
counts how often each has told that its tools changed.
-/

namespace DialogueEngine

/-- A request to the machine about a server. -/
inductive ServerRequest where
  /-- Start a program and greet it. -/
  | launch (server command : String) (args : List String) (env : Table String)
  /-- Greet a server on the network. -/
  | dial (server url : String)
  /-- All tools of a session's server. -/
  | listing (session : Nat)
  /-- Run a tool, for at most so many seconds. -/
  | call (session : Nat) (tool : String) (arguments : Option Json) (seconds : Nat)
  /-- End a session. -/
  | close (session : Nat)

/-- Why a server could not be reached. -/
inductive ConnectFailure where
  /-- Its program did not start. -/
  | spawn (reason : String)
  /-- It did not answer the greeting. -/
  | greeting (reason : String)
  deriving DecidableEq, Repr

/-- A piece of what a tool answers. -/
inductive Content where
  | text (text : String)
  /-- Something that is no text, as it is shown. -/
  | other (shown : String)
  deriving DecidableEq, Repr

/-- What comes of a call. -/
inductive CallReply where
  | answered (content : List Content) (isError : Bool)
  | failed (reason : String)
  /-- There was no answer in time. -/
  | late
  deriving DecidableEq, Repr

/-- What a request is answered with. -/
abbrev ServerReply : ServerRequest → Type
  | .launch .. => Except ConnectFailure Nat
  | .dial .. => Except ConnectFailure Nat
  | .listing _ => Except String (List ListedTool)
  | .call .. => CallReply
  | .close _ => Unit

namespace Content

def shown : Content → String
  | .text s => s
  | .other s => s

end Content

/-- The connections to configured servers. -/
structure Pool where
  servers : Table ServerSettings
  /-- The open sessions by the names of their servers. -/
  sessions : Table Nat
  /-- The environments that connections were last opened with. -/
  environments : Table (Table String)
  /-- How often servers told that their tools changed. -/
  revisions : Table Nat

namespace Pool

/-- The pool without connections. -/
def ofServers (servers : Table ServerSettings) : Pool := ⟨servers, ∅, ∅, ∅⟩

def configured (p : Pool) : List String := p.servers.keys

def hasConnection (p : Pool) (server : String) : Bool := p.sessions.has server

/-- How often a server told that its tools changed. -/
def revision (p : Pool) (server : String) : Nat := (p.revisions.get? server).getD 0

/-- Counts that a server told that its tools changed. -/
def countChange (server : String) (p : Pool) : Pool :=
  { p with revisions := p.revisions.insert server (p.revision server + 1) }

/-- Something done with the pool. -/
abbrev Task := Activity Pool ServerRequest ServerReply

def ask (q : ServerRequest) : Task (ServerReply q) := Activity.ask q

def present : Task Pool := Activity.get

/-- Asks the machine to reach a server; `env` comes before what is configured. -/
def reach (server : String) (transport : Transport) (env : Table String) :
    Task (Except ProviderFailure Nat) := do
  let failure (message : String) : Except ProviderFailure Nat :=
    .error (.connection server message)
  let reply ← match transport with
    | .stdio command args base => do
      match ← ask (.launch server command args (base.overlay env)) with
      | .error (.spawn reason) =>
        return failure ("failed to spawn " ++ command ++ ": " ++ reason)
      | reply => pure reply
    | .http url => ask (.dial server url)
  match reply with
  | .ok session => return .ok session
  | .error (.spawn reason) | .error (.greeting reason) =>
    return failure ("initialization failed: " ++ reason)

/-- Opens a connection in the place of the one that is open. -/
def connect (server : String) (env : Table String) : Task (Except ProviderFailure Unit) := do
  match (← present).servers.get? server with
  | none =>
    return .error (.connection server "no MCP server configured under this name")
  | some settings =>
    match ← reach server settings.transport env with
    | .error f => return .error f
    | .ok session =>
      let former := (← present).sessions.get? server
      Activity.modify fun p => { p with sessions := p.sessions.insert server session }
      match former with
      | some former => ask (.close former)
      | none => pure ()
      Activity.modify fun p => { p with environments := p.environments.insert server env }
      return .ok ()

def disconnect (server : String) : Task Unit := do
  match (← present).sessions.get? server with
  | none => return ()
  | some session =>
    Activity.modify fun p => { p with sessions := p.sessions.erase server }
    ask (.close session)

/-- Closes the connection to a server and opens another with the environment of the last. -/
def reconnect (server : String) : Task (Except ProviderFailure Unit) := do
  let env := ((← present).environments.get? server).getD ∅
  disconnect server
  connect server env

/-- Closes connections one after the other. -/
def disconnectEach : List String → Task Unit
  | [] => return ()
  | server :: rest => do
    disconnect server
    disconnectEach rest

def shutDown : Task Unit := do
  disconnectEach (← present).sessions.keys

def listing (server : String) : Task (Except ProviderFailure (List ListedTool)) := do
  match (← present).sessions.get? server with
  | none => return .error (.listing server "not connected")
  | some session =>
    match ← ask (.listing session) with
    | .error reason => return .error (.listing server reason)
    | .ok tools => return .ok tools

/-- Runs a tool of a connected server. -/
def callOnce (server tool : String) (arguments : Option Json) :
    Task (Except ProviderFailure ToolResult) := do
  let p ← present
  match p.sessions.get? server with
  | none => return .error (.processing ("Server '" ++ server ++ "' not connected"))
  | some session =>
    let seconds := ((p.servers.get? server).map (·.timeoutSecs)).getD 120
    let named := "Tool call '" ++ server ++ "." ++ tool ++ "' "
    match ← ask (.call session tool arguments seconds) with
    | .late =>
      return .error (.processing (named ++ "timed out after " ++ toString seconds ++ "s"))
    | .failed reason => return .error (.processing (named ++ "failed: " ++ reason))
    | .answered content isError =>
      return .ok ⟨Text.join "\n" (content.map Content.shown), isError⟩

/-- Whether a message tells that a connection is gone. -/
def tellsOfLoss (message : String) : Bool :=
  Text.contains "closed".toList message.toList || Text.contains "Transport".toList message.toList

/-- Runs a tool of a server, a second time over a new connection if the first is gone. The
arguments are an object, or null for none. -/
def runTool (server tool : String) (arguments : Json) :
    Task (Except ProviderFailure ToolResult) := do
  let given? : Except ProviderFailure (Option Json) := match arguments with
    | .null => .ok none
    | .object ms => .ok (some (.object ms))
    | other => .error (.processing
      ("arguments for '" ++ tool ++ "' must be a JSON object, got " ++ other.write))
  match given? with
  | .error f => return .error f
  | .ok given =>
    match ← callOnce server tool given with
    | .ok result => return .ok result
    | .error f =>
      if tellsOfLoss f.message then
        match ← reconnect server with
        | .ok () => callOnce server tool given
        | .error _ => return .error f
      else return .error f

/-- Answers a question of the engine; there is no model to ask. -/
def answer : (q : Question) → Task (Answer q)
  | .complete model _ _ => return .error (.notFound model)
  | .hasConnection server => do return (← present).hasConnection server
  | .connect server env => connect server env
  | .listing server => listing server
  | .revision server => do return (← present).revision server
  | .runTool server tool arguments => runTool server tool arguments

end Pool

end DialogueEngine
