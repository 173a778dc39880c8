import DialogueEngine.Engine.Situation

/-!
Stand-ins for the model and the tool client. A scripted model answers by its script, one entry a
call; a stub client offers declared tools with prepared answers. Both record what they are asked.
A cued provider answers by queues.
-/

namespace DialogueEngine.Rehearsal

/-! ## A model with a script -/

structure ModelCall where
  model : String
  messages : List Message
  tools : List DeclaredTool

/-- A model that answers by a script. -/
structure RehearsedModel where
  script : List (Except ModelFailure Completion)
  /-- The calls so far. -/
  calls : List ModelCall

namespace RehearsedModel

/-- Answers a call with the next entry; past the end of the script every call fails. -/
def complete (call : ModelCall) (m : RehearsedModel) :
    Except ModelFailure Completion × RehearsedModel :=
  match m.script with
  | [] => (.error (.unknown "script exhausted"), { m with calls := m.calls ++ [call] })
  | entry :: rest => (entry, ⟨rest, m.calls ++ [call]⟩)

end RehearsedModel

/-! ## A client with declared tools -/

structure ClientCall where
  provider : String
  tool : String
  arguments : Json
  deriving DecidableEq

/-- A client of declared providers. -/
structure StubClient where
  tools : Table (List ListedTool)
  /-- The prepared answers: provider, tool and text; a later one comes first. -/
  responses : List (String × String × String)
  unreachable : List String
  connected : List String
  /-- The environment of the latest connection to each provider. -/
  environments : Table (Table String)
  calls : List ClientCall
  /-- How often each provider was listed. -/
  listings : Table Nat
  revisions : Table Nat

namespace StubClient

def empty : StubClient := ⟨∅, [], [], [], ∅, [], ∅, ∅⟩

def definition (name description : String) : ListedTool :=
  ⟨name, description, .object
    [("properties", .object [("q", .object [("type", .string "string")])]),
      ("type", .string "object")]⟩

/-- Declares a tool, and its provider with it. -/
def declare (provider name description : String) (c : StubClient) : StubClient :=
  let tools := (c.tools.get? provider).getD [] ++ [definition name description]
  { c with tools := c.tools.insert provider tools }

/-- Prepares the answer of a tool. -/
def respond (provider tool text : String) (c : StubClient) : StubClient :=
  { c with responses := (provider, tool, text) :: c.responses }

/-- Makes a provider unreachable. -/
def cutOff (provider : String) (c : StubClient) : StubClient :=
  { c with unreachable := provider :: c.unreachable }

def revision (c : StubClient) (provider : String) : Nat := (c.revisions.get? provider).getD 0

def timesListed (c : StubClient) (provider : String) : Nat := (c.listings.get? provider).getD 0

/-- Adds a tool to a provider and tells that its tools changed. -/
def addTool (provider name : String) (c : StubClient) : StubClient :=
  let c := c.declare provider name ""
  { c with revisions := c.revisions.insert provider (c.revision provider + 1) }

/-- Connects a provider that is declared and reachable. -/
def connect (provider : String) (env : Table String) (c : StubClient) :
    Except ProviderFailure Unit × StubClient :=
  if c.unreachable.contains provider || !c.tools.has provider then
    (.error (.connection provider "unreachable"), c)
  else
    (.ok (), { c with
      connected := provider :: c.connected
      environments := c.environments.insert provider env })

/-- Lists the tools of a connected provider. -/
def list (provider : String) (c : StubClient) :
    Except ProviderFailure (List ListedTool) × StubClient :=
  if c.connected.contains provider then
    (.ok ((c.tools.get? provider).getD []),
      { c with listings := c.listings.insert provider (c.timesListed provider + 1) })
  else (.error (.listing provider "not connected"), c)

def response (c : StubClient) (provider tool : String) : String :=
  ((c.responses.find? fun r => r.1 = provider && r.2.1 = tool).map (·.2.2)).getD "ok"

/-- Runs a tool; a connection is not needed. -/
def call (request : ClientCall) (c : StubClient) : Except ProviderFailure ToolResult × StubClient :=
  let result : Except ProviderFailure ToolResult :=
    match c.tools.get? request.provider with
    | none => .error (.processing ("Unknown provider: " ++ request.provider))
    | some tools =>
      if tools.any fun t => t.name = request.tool then
        .ok (.success (c.response request.provider request.tool))
      else .ok (.failure ("Unknown tool: " ++ request.tool))
  (result, { c with calls := c.calls ++ [request] })

end StubClient

/-! ## A provider with queues -/

/-- A provider that answers by queues; `ε` is what an answer to a call is made from. -/
structure CuedProvider (ε : Type) where
  tools : List ListedTool
  connected : Bool
  revision : Nat
  /-- For each of the coming connections the text it fails with, if it fails. -/
  connections : List (Option String)
  /-- For each of the coming listings the text it fails with, if it fails. -/
  listings : List (Option String)
  /-- The answers of each tool; the last one stays. -/
  answers : Table (List ε)

namespace CuedProvider

variable {ε : Type}

def empty : CuedProvider ε := ⟨[], false, 0, [], [], ∅⟩

/-- Takes the next cue; there is no failure where none is left. -/
def next (cues : List (Option String)) : Option String × List (Option String) :=
  match cues with
  | [] => (none, [])
  | cue :: rest => (cue, rest)

def connect (p : CuedProvider ε) : Except String Unit × CuedProvider ε :=
  match next p.connections with
  | (some text, connections) => (.error text, { p with connections })
  | (none, connections) => (.ok (), { p with connections, connected := true })

def list (p : CuedProvider ε) : Except String (List ListedTool) × CuedProvider ε :=
  match next p.listings with
  | (some text, listings) => (.error text, { p with listings })
  | (none, listings) => (.ok p.tools, { p with listings })

/-- Takes the next answer of a tool, if it has any. -/
def answer (tool : String) (p : CuedProvider ε) : Option ε × CuedProvider ε :=
  match p.answers.get? tool with
  | none | some [] => (none, p)
  | some [last] => (some last, p)
  | some (first :: rest) => (some first, { p with answers := p.answers.insert tool rest })

end CuedProvider

end DialogueEngine.Rehearsal
