import DialogueEngine.Failure
import DialogueEngine.Table

/-!
Typed properties of the four kinds of nodes. The kind is spelt in any case and with or without
joining marks; each property goes by two spellings; properties that are missing have defaults.
-/

namespace DialogueEngine

open Json (Reader Record)

namespace Json

def ofText? : Option String → Json
  | some s => .string s
  | none => .null

def ofTexts (texts : List String) : Json := .array (texts.map .string)

def ofTable (t : Table String) : Json := .object (t.entries.map fun e => (e.1, .string e.2))

/-- Reads a table; of two members under one key the later stands. -/
def Reader.table {α : Type} (read : Reader α) : Reader (Table α) := fun m s =>
  (Reader.members read m s).map Table.ofList

end Json

inductive NodeKind where
  | start
  | process
  | toolProvider
  | finish
  deriving DecidableEq, Repr, Inhabited

namespace NodeKind

/-- The kind of a text: case and the marks `_` and `-` make no difference. -/
def ofText? (s : String) : Option NodeKind :=
  let plain := (s.toList.filter fun c => c != '_' && c != '-').map Char.toLower
  if plain = "start".toList then some .start
  else if plain = "process".toList then some .process
  else if plain = "toolprovider".toList then some .toolProvider
  else if plain = "finish".toList then some .finish
  else none

def text : NodeKind → String
  | .start => "start"
  | .process => "process"
  | .toolProvider => "tool_provider"
  | .finish => "finish"

end NodeKind

/-- A provider of tools as a process sees it. -/
structure ProviderRef where
  /-- The node that the reference comes from. -/
  id : String
  provider : String
  /-- The tools that may be used; none listed means all. -/
  enabledTools : List String
  /-- Variables set when the provider is connected. -/
  env : Table String
  deriving DecidableEq, Inhabited

namespace ProviderRef

def toJson (r : ProviderRef) : Json :=
  .object [("boundProvider", .string r.provider), ("enabledTools", .ofTexts r.enabledTools),
    ("env", .ofTable r.env), ("id", .string r.id)]

def read : Reader ProviderRef :=
  Record.read "struct ToolProviderRef"
    [["id"], ["boundProvider", "bound_provider"], ["enabledTools", "enabled_tools"], ["env"]]
    fun r =>
    ProviderRef.mk <$> r.required "id" Reader.text <*> r.required "boundProvider" Reader.text <*>
      r.defaulted "enabledTools" [] (Reader.list Reader.text) <*>
      r.defaulted "env" ∅ (Reader.table Reader.text)

end ProviderRef

structure StartSpec where
  promptTemplate : String
  deriving DecidableEq, Inhabited

structure ProcessSpec where
  promptTemplate : String
  model : Option String
  /-- The tools that the model may see, by either of their names; none listed means all. -/
  allowedTools : List String
  providerRefs : List ProviderRef
  excludeModelPrompt : Bool
  excludeStartPrompt : Bool
  requireApproval : Bool
  deriving DecidableEq, Inhabited

structure ProviderSpec where
  provider : Option String
  enabledTools : List String
  env : Table String
  deriving DecidableEq, Inhabited

namespace StartSpec

def toJson (s : StartSpec) : Json := .object [("promptTemplate", .string s.promptTemplate)]

def read : Reader StartSpec :=
  Record.read "struct StartProps" [["promptTemplate", "prompt_template"]] fun r =>
    StartSpec.mk <$> r.defaulted "promptTemplate" "" Reader.text

end StartSpec

namespace ProcessSpec

def toJson (s : ProcessSpec) : Json :=
  .object [("allowedTools", .ofTexts s.allowedTools), ("boundModel", .ofText? s.model),
    ("excludeModelPrompt", .bool s.excludeModelPrompt),
    ("excludeStartPrompt", .bool s.excludeStartPrompt),
    ("promptTemplate", .string s.promptTemplate), ("requireApproval", .bool s.requireApproval),
    ("toolProviderRefs", .array (s.providerRefs.map ProviderRef.toJson))]

def read : Reader ProcessSpec :=
  Record.read "struct ProcessProps"
    [["promptTemplate", "prompt_template"], ["boundModel", "bound_model"],
      ["allowedTools", "allowed_tools"], ["toolProviderRefs", "tool_provider_refs"],
      ["excludeModelPrompt", "exclude_model_prompt"],
      ["excludeStartPrompt", "exclude_start_prompt"], ["requireApproval", "require_approval"]]
    fun r =>
    ProcessSpec.mk <$> r.defaulted "promptTemplate" "" Reader.text <*>
      r.optional "boundModel" Reader.text <*>
      r.defaulted "allowedTools" [] (Reader.list Reader.text) <*>
      r.defaulted "toolProviderRefs" [] (Reader.list ProviderRef.read) <*>
      r.defaulted "excludeModelPrompt" false Reader.bool <*>
      r.defaulted "excludeStartPrompt" false Reader.bool <*>
      r.defaulted "requireApproval" false Reader.bool

end ProcessSpec

/-- A name that is given and not empty. -/
def given? : Option String → Option String
  | some name => if name = "" then none else some name
  | none => none

namespace ProviderSpec

def toJson (s : ProviderSpec) : Json :=
  .object [("boundProvider", .ofText? s.provider), ("enabledTools", .ofTexts s.enabledTools),
    ("env", .ofTable s.env)]

def read : Reader ProviderSpec :=
  Record.read "struct ToolProviderProps"
    [["boundProvider", "bound_provider"], ["enabledTools", "enabled_tools"], ["env"]] fun r =>
    ProviderSpec.mk <$> r.optional "boundProvider" Reader.text <*>
      r.defaulted "enabledTools" [] (Reader.list Reader.text) <*>
      r.defaulted "env" ∅ (Reader.table Reader.text)

/-- The provider, which a node that runs must have. -/
def require (s : ProviderSpec) (node : String) : Except NodeFailure String :=
  match given? s.provider with
  | some provider => .ok provider
  | none => .error (.missingProperty node "bound_provider")

end ProviderSpec

inductive NodeSpec where
  | start (spec : StartSpec)
  | process (spec : ProcessSpec)
  | toolProvider (spec : ProviderSpec)
  | finish
  deriving DecidableEq, Inhabited

/-- Why properties cannot be typed. -/
inductive SpecFailure where
  | node (cause : NodeFailure)
  | document (fault : Json.Fault)
  deriving DecidableEq

namespace NodeSpec

def kind : NodeSpec → NodeKind
  | .start _ => .start
  | .process _ => .process
  | .toolProvider _ => .toolProvider
  | .finish => .finish

def toJson : NodeSpec → Json
  | .start spec => spec.toJson
  | .process spec => spec.toJson
  | .toolProvider spec => spec.toJson
  | .finish => .null

/-- Types the properties of a node of a given kind; null stands for no properties. -/
def parse (node kind : String) (data : Json) : Except SpecFailure NodeSpec :=
  match NodeKind.ofText? kind with
  | none => .error (.node (.unknownKind node kind))
  | some kind =>
    let data := if data = .null then .object [] else data
    let typed {α : Type} (read : Reader α) (wrap : α → NodeSpec) : Except SpecFailure NodeSpec :=
      match read.ofJson data with
      | .ok spec => .ok (wrap spec)
      | .error fault => .error (.document fault)
    match kind with
    | .start => typed StartSpec.read .start
    | .process => typed ProcessSpec.read .process
    | .toolProvider => typed ProviderSpec.read .toolProvider
    | .finish => .ok .finish

end NodeSpec

end DialogueEngine
