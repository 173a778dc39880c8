import DialogueEngine.Flow.NodeSpec

/-!
Settings of the engine: how far a turn may go, when people are asked, where conversations are kept,
what each model is told, and the servers that provide tools.
-/

namespace DialogueEngine

open Json (Reader Record)

structure EngineSettings where
  /-- The most model calls that a process makes in one turn. -/
  maxToolIterations : Nat
  /-- Whether new conversations record their steps. -/
  defaultDebugMode : Bool
  deriving DecidableEq, Repr

structure ApprovalSettings where
  /-- Whether every call of a provider's tool waits for approval. -/
  requireApproval : Bool
  /-- What the model is told when a call is rejected. -/
  rejectionMessage : String
  deriving DecidableEq, Repr

/-- Where conversations are kept. -/
inductive Backend where
  | memory
  | database
  deriving DecidableEq, Repr

structure StoreSettings where
  backend : Backend
  path : String
  deriving DecidableEq, Repr

structure ModelSettings where
  systemPrompt : Option String
  deriving DecidableEq, Repr

/-- How a server is reached. -/
inductive Transport where
  /-- A program that talks over its standard streams. -/
  | stdio (command : String) (args : List String) (env : Table String)
  /-- A server on the network. -/
  | http (url : String)
  deriving DecidableEq

structure ServerSettings where
  transport : Transport
  /-- How many seconds a tool call may take. -/
  timeoutSecs : Nat
  deriving DecidableEq

structure Settings where
  engine : EngineSettings
  approval : ApprovalSettings
  store : StoreSettings
  models : Table ModelSettings
  /-- The servers, if the section is there. -/
  servers : Option (Table ServerSettings)
  deriving DecidableEq

namespace EngineSettings

def standard : EngineSettings := ⟨25, false⟩

def toJson (s : EngineSettings) : Json :=
  .object [("default_debug_mode", .bool s.defaultDebugMode),
    ("max_tool_iterations", .ofNat s.maxToolIterations)]

def read : Reader EngineSettings :=
  Record.read "settings of the engine" [["max_tool_iterations"], ["default_debug_mode"]] fun r =>
    EngineSettings.mk <$> r.defaulted "max_tool_iterations" 25 Reader.count <*>
      r.defaulted "default_debug_mode" false Reader.bool

end EngineSettings

namespace ApprovalSettings

def standard : ApprovalSettings := ⟨false, "Tool call was rejected by the user."⟩

def toJson (s : ApprovalSettings) : Json :=
  .object [("rejection_message", .string s.rejectionMessage),
    ("require_approval", .bool s.requireApproval)]

def read : Reader ApprovalSettings :=
  Record.read "settings of approval" [["require_approval"], ["rejection_message"]] fun r =>
    ApprovalSettings.mk <$> r.defaulted "require_approval" false Reader.bool <*>
      r.defaulted "rejection_message" standard.rejectionMessage Reader.text

end ApprovalSettings

namespace Backend

def text : Backend → String
  | .memory => "memory"
  | .database => "sqlite"

def read : Reader Backend := Reader.choice [(["memory"], .memory), (["sqlite"], .database)]

end Backend

namespace StoreSettings

def standard : StoreSettings := ⟨.memory, "~/.agentflow/conversations.db"⟩

def toJson (s : StoreSettings) : Json :=
  .object [("backend", .string s.backend.text), ("path", .string s.path)]

def read : Reader StoreSettings :=
  Record.read "settings of the store" [["backend"], ["path"]] fun r =>
    StoreSettings.mk <$> r.defaulted "backend" .memory Backend.read <*>
      r.defaulted "path" standard.path Reader.text

end StoreSettings

namespace ModelSettings

def toJson (s : ModelSettings) : Json := .object [("system_prompt", .ofText? s.systemPrompt)]

def read : Reader ModelSettings :=
  Record.read "settings of a model" [["system_prompt"]] fun r =>
    ModelSettings.mk <$> r.optional "system_prompt" Reader.text

end ModelSettings

namespace Transport

def toJson : Transport → Json
  | .stdio command args env =>
    .object [("args", .ofTexts args), ("command", .string command), ("env", .ofTable env),
      ("type", .string "stdio")]
  | .http url => .object [("type", .string "http"), ("url", .string url)]

/-- Which transport it is. -/
inductive Tag where
  | stdio
  | http
  deriving DecidableEq, Repr

/-- Reads a tag. -/
def Tag.read : Reader Tag := fun m s => do
  Reader.named [(["stdio"], .stdio), (["http"], .http)] (← Reader.text m s)

def readStdio : Reader Transport :=
  Record.read "a program" [["command"], ["args"], ["env"]] fun r =>
    Transport.stdio <$> r.required "command" Reader.text <*>
      r.defaulted "args" [] (Reader.list Reader.text) <*>
      r.defaulted "env" ∅ (Reader.table Reader.text)

def readHttp : Reader Transport :=
  Record.read "an address" [["url"]] fun r =>
    Transport.http <$> r.required "url" Reader.text

/-- Reads a transport: its tag says what the rest is. -/
def read : Reader Transport := Json.tagged "type" "a transport" Tag.read
  fun tag => match tag with
    | .stdio => readStdio
    | .http => readHttp

end Transport

namespace ServerSettings

def toJson (s : ServerSettings) : Json :=
  .object [("timeout_secs", .ofNat s.timeoutSecs), ("transport", s.transport.toJson)]

def read : Reader ServerSettings :=
  Record.read "settings of a server" [["transport"], ["timeout_secs"]] fun r =>
    ServerSettings.mk <$> r.required "transport" Transport.read <*>
      r.defaulted "timeout_secs" 120 Reader.count

def tableToJson (t : Table ServerSettings) : Json :=
  .object [("servers", .object (t.entries.map fun e => (e.1, e.2.toJson)))]

def readTable : Reader (Table ServerSettings) :=
  Record.read "settings of servers" [["servers"]] fun r =>
    r.defaulted "servers" ∅ (Reader.table read)

end ServerSettings

namespace Settings

/-- The settings where nothing is set. -/
def standard : Settings :=
  ⟨.standard, .standard, .standard, ∅, none⟩

instance : Inhabited Settings := ⟨standard⟩

def toJson (s : Settings) : Json :=
  .object [("approval", s.approval.toJson), ("engine", s.engine.toJson),
    ("mcp", (s.servers.map ServerSettings.tableToJson).getD .null),
    ("models", .object (s.models.entries.map fun e => (e.1, e.2.toJson))),
    ("store", s.store.toJson)]

def read : Reader Settings :=
  Record.read "settings" [["engine"], ["approval"], ["store"], ["models"], ["mcp"]]
    fun r =>
    Settings.mk <$> r.defaulted "engine" .standard EngineSettings.read <*>
      r.defaulted "approval" .standard ApprovalSettings.read <*>
      r.defaulted "store" .standard StoreSettings.read <*>
      r.defaulted "models" ∅ (Reader.table ModelSettings.read) <*>
      r.optional "mcp" ServerSettings.readTable

/-- What a model is told by its own settings. -/
def modelPrompt (s : Settings) (model : String) : Option String :=
  (s.models.get? model).bind (·.systemPrompt)

end Settings

end DialogueEngine
