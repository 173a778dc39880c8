import DialogueEngine.Command.Report
import DialogueEngine.Provider.Pool
import DialogueEngine.Settings.Document

/-!
Carrying out commands. A command reads settings, flow files and the rows of a database, and works on
a conversation as the engine does; all of it is asked of the machine. What the command prints before
it fails stays printed.
-/

namespace DialogueEngine

/-- A request to the machine that commands run on. -/
inductive MachineRequest where
  | isThere (path : String)
  | readText (path : String)
  /-- The rows of a database; a missing one is made. -/
  | loadRows (path : String)
  | saveRows (path : String) (rows : List Row)
  | clock
  | server (request : ServerRequest)

/-- What a request is answered with; a text tells why it was refused. -/
abbrev MachineReply : MachineRequest → Type
  | .isThere _ => Bool
  | .readText _ => Except String String
  | .loadRows _ => Except String (List Row)
  | .saveRows .. => Unit
  | .clock => Clock
  | .server request => ServerReply request

/-- What came of a command. -/
structure Report where
  lines : List String
  failure : Option Failure

/-- Something done for a command. -/
abbrev Errand := Activity Pool MachineRequest MachineReply

namespace Report

def printed (lines : List String) : Report := ⟨lines, none⟩

def failed (f : Failure) : Report := ⟨[], some f⟩

def ofLines : Except Failure (List String) → Report
  | .ok lines => printed lines
  | .error f => failed f

end Report

namespace Errand

def ask (q : MachineRequest) : Errand (MachineReply q) := Activity.ask q

/-- Something done with the servers. -/
def withServers {α : Type} (task : Pool.Task α) : Errand α := fun p =>
  (task p).relayed MachineRequest.server fun _ => rfl

/-- The settings at a path, or else those of the user, or else the standard ones. -/
def loadSettings (env : Environment) (path : String) : Errand (Except Failure Settings) := do
  if ← ask (.isThere path) then
    return Settings.ofFile env path (← ask (.readText path)).toOption
  match env.get? "HOME" with
  | none => return .ok .standard
  | some home =>
    let own := Environment.resolve (some home) "~/.agentflow/config.toml"
    if ← ask (.isThere own) then
      return Settings.ofFile env own (← ask (.readText own)).toOption
    else return .ok .standard

def loadGraph (path : String) : Errand (Except Failure Graph) := do
  match ← ask (.readText path) with
  | .error reason => return .error (.io reason)
  | .ok text =>
    match AuthoredFlow.read.ofText text with
    | .error fault =>
      return .error
        (.config ("invalid flow file " ++ path ++ ": " ++ (Failure.document fault).message))
    | .ok authored => return authored.toGraph.mapError .graph

def databasePath (env : Environment) (settings : Settings) : String :=
  Environment.resolve (env.get? "HOME") settings.store.path

def storeFor (env : Environment) (settings : Settings) : Errand (Except Failure Store) := do
  match settings.store.backend with
  | .memory => return .ok .memory
  | .database =>
    match ← ask (.loadRows (databasePath env settings)) with
    | .error reason => return .error (.database reason)
    | .ok rows => return .ok { Store.table with backing := .table rows }

/-- Keeps what is in a store, as far as it outlives the command. -/
def keepStore (env : Environment) (settings : Settings) (store : Store) : Errand Unit := do
  match store.backing with
  | .memory _ => return ()
  | .table rows => ask (.saveRows (databasePath env settings) rows)

/-- Carries out an operation of the engine on a store; with its value comes the store behind it. -/
def operate {α : Type} (settings : Settings) (store : Store) (operation : Engine α) :
    Errand (α × Store) := do
  let clock ← ask .clock
  let (value, situation) ← withServers fun p =>
    (operation (.fresh settings store clock)).through Pool.answer p
  return (value, situation.store)

/-- The lines about the conversations with ids, up to one that cannot be read. -/
def listLines : List String → Store → Report
  | [], _ => .printed []
  | id :: rest, store =>
    match store.get id with
    | (.error f, _) => .failed f
    | (.ok found, store) =>
      let more := listLines rest store
      { more with lines := found.toList.map Conversation.report ++ more.lines }

def list (store : Store) : Report :=
  let ids := store.backing.list
  if ids.isEmpty then .printed ["No conversations."] else listLines ids store

def display (id : String) (store : Store) : Report :=
  match (store.get id).1 with
  | .error f => .failed f
  | .ok none => .failed (.conversationNotFound id)
  | .ok (some c) => .printed [c.toJson.writeIndented]

def tools (settings : Settings) (g : Graph) : Errand Report := do
  if g.providerRefs.isEmpty then
    return .printed ["Flow " ++ g.flow ++ " binds no tool providers."]
  let (discovered, _) ← operate settings .memory (Engine.discover g.providerRefs)
  withServers Pool.shutDown
  match discovered with
  | .error f => return .failed (.provider f)
  | .ok found =>
    match ListedTool.declareAll (found.map (·.definition)) with
    | .error f => return .failed (.tool f)
    | .ok specs => return .printed [(Json.array (specs.map DeclaredTool.toJson)).writeIndented]

/-- Decides about the pending call whose id begins with a text. -/
def resolve (conversation front : String) (decision : Decision) :
    Engine (Except Failure (List String)) := do
  match ← Engine.findPending conversation front with
  | .error f => return .error f
  | .ok call =>
    match ← Engine.resolve conversation call.id decision with
    | .error f => return .error f
    | .ok c => return .ok (c.decisionReport call decision)

def cancel (conversation : String) : Engine (Except Failure (List String)) := do
  match ← Engine.cancel conversation with
  | .error f => return .error f
  | .ok () => return .ok ["Cancelled " ++ conversation]

/-- Carries out a command on the conversations of a store. -/
def onStore (env : Environment) (settings : Settings) (command : Store → Errand (Report × Store)) :
    Errand Report := do
  match ← storeFor env settings with
  | .error f => return .failed f
  | .ok store =>
    let (report, store) ← command store
    keepStore env settings store
    withServers Pool.shutDown
    return report

def perform (env : Environment) (settings : Settings) : Command → Errand Report
  | .validate flow => do return .ofLines ((← loadGraph flow).map Graph.report)
  | .tools flow => do
    match ← loadGraph flow with
    | .error f => return .failed f
    | .ok g => tools settings g
  | .list => onStore env settings fun store => return (list store, store)
  | .display id => onStore env settings fun store => return (display id store, store)
  | .delete id => onStore env settings fun store =>
    let (there, backing) := store.backing.delete id
    let report := if there then .printed ["Deleted " ++ id] else .failed (.conversationNotFound id)
    return (report, { store with backing })
  | .resolve conversation front decision => onStore env settings fun store => do
    let (lines, store) ← operate settings store (resolve conversation front decision)
    return (.ofLines lines, store)
  | .cancel conversation => onStore env settings fun store => do
    let (lines, store) ← operate settings store (cancel conversation)
    return (.ofLines lines, store)

/-- Carries out a command under the settings it names. -/
def run (env : Environment) (o : Order) : Errand Report := do
  match ← loadSettings env o.settings with
  | .error f => return .failed f
  | .ok settings =>
    Activity.modify fun _ => .ofServers ((settings.servers).getD ∅)
    perform env settings o.command

/-- The path of the settings where the arguments give none. -/
def standardPath (env : Environment) : String :=
  (env.get? "AGENTFLOW_CONFIG").getD "agentflow.toml"

/-- Carries out what arguments ask for: what is printed, and the status to end with. -/
def ofArguments (env : Environment) (arguments : List String) : Errand (Report × Nat) := do
  match Usage.ofArguments (standardPath env) arguments with
  | .help => return (.printed Usage.helpLines, 0)
  | .version => return (.printed [Usage.versionLine], 0)
  | .misuse => return (.printed [], 2)
  | .order o =>
    let report ← run env o
    return (report, if report.failure.isSome then 1 else 0)

end Errand

end DialogueEngine
