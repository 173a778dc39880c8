import DialogueEngine.Engine.Situation
import DialogueEngine.Tool.Selection

/-!
Finding the tools of providers and running them. A provider that cannot be connected is passed
over; one that cannot be listed is a failure. A conversation keeps each full listing with the
revision read before it was taken, and a listing is taken again once the revision has moved.
-/

namespace DialogueEngine

namespace Engine

def ensureConnected (r : ProviderRef) : Engine (Except ProviderFailure Unit) := do
  if ← ask (.hasConnection r.provider) then return .ok ()
  ask (.connect r.provider r.env)

/-- The listing of a provider, or none where it cannot be connected. -/
def fullListing (r : ProviderRef) :
    Engine (Except ProviderFailure (Option (List OfferedTool))) := do
  match ← ensureConnected r with
  | .error f =>
    publish (.providerSkipped r.provider f.message)
    return .ok none
  | .ok () =>
    match ← ask (.listing r.provider) with
    | .error f => return .error (.processing f.message)
    | .ok listing => return .ok (some (OfferedTool.ofListing r.provider listing))

/-- The tools that a reference enables, or none where its provider is passed over. -/
def enabledListing (r : ProviderRef) :
    Engine (Except ProviderFailure (Option (List OfferedTool))) := do
  match ← fullListing r with
  | .error f => return .error f
  | .ok listed => return .ok (listed.map r.enabled)

/-- The tools of references one after the other, the first of each name. -/
def discoverAll : List ProviderRef → Engine (Except ProviderFailure (List OfferedTool))
  | [] => return .ok []
  | r :: rest => do
    match ← enabledListing r with
    | .error f => return .error f
    | .ok tools =>
      match ← discoverAll rest with
      | .error f => return .error f
      | .ok others => return .ok (tools.getD [] ++ others)

/-- The tools of references, the first of each name. -/
def discover (refs : List ProviderRef) :
    Engine (Except ProviderFailure (List OfferedTool)) := do
  match ← discoverAll refs with
  | .error f => return .error f
  | .ok tools => return .ok (OfferedTool.distinct [] tools)

/-- The tools that a reference enables, from the conversation's listing where that is up to date. -/
def toolsOf (c : Conversation) (r : ProviderRef) :
    Engine (Conversation × Except ProviderFailure (Option (List OfferedTool))) := do
  let revision ← ask (.revision r.provider)
  match c.keptListing r.provider revision with
  | some tools => return (c, .ok (some (r.enabled tools)))
  | none =>
    match ← fullListing r with
    | .error f => return (c, .error f)
    | .ok none => return (c, .ok none)
    | .ok (some tools) =>
      return (c.keepListing r.provider tools revision (← now), .ok (some (r.enabled tools)))

/-- The tools of references one after the other, from the conversation's listings where those are
up to date. -/
def toolsOfAll (c : Conversation) :
    List ProviderRef → Engine (Conversation × Except ProviderFailure (List OfferedTool))
  | [] => return (c, .ok [])
  | r :: rest => do
    match ← toolsOf c r with
    | (c, .error f) => return (c, .error f)
    | (c, .ok tools) =>
      match ← toolsOfAll c rest with
      | (c, .error f) => return (c, .error f)
      | (c, .ok others) => return (c, .ok (tools.getD [] ++ others))

end Engine

/-- What became of a tool call. -/
inductive Invocation where
  /-- It names a route; no provider was asked. -/
  | handoff (name : String)
  /-- There is a result for the model, from the provider or about the name. -/
  | completed (result : ToolResult)
  deriving DecidableEq

namespace Engine

def invoke (conversation : String) (call : ToolCall) : Engine Invocation := do
  if ToolName.isRoute call.name then return .handoff call.name
  match ToolName.split call.name with
  | .error f => return .completed (.failure f.message)
  | .ok (provider, tool) =>
    publish (.toolStart conversation call.name call.arguments)
    let result := match ← ask (.runTool provider tool call.arguments) with
      | .ok result => result
      | .error f => .failure f.message
    publish (.toolEnd conversation call.name result)
    return .completed result

end Engine

end DialogueEngine
