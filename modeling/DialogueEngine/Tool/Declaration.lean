import DialogueEngine.Tool.Schema
import DialogueEngine.Text.Blank

/-!
Declaring tools to the model. Every definition needs a name that is not blank and an object for a
schema, which is declared as the model accepts it; the first that has not is refused.
-/

namespace DialogueEngine

namespace Json

def isObject : Json → Bool
  | .object _ => true
  | _ => false

end Json

namespace ListedTool

def declare (t : ListedTool) : Except ToolFailure DeclaredTool :=
  if Text.isBlankText t.name then .error (.invalidTool "tool has an empty name")
  else if t.inputSchema.isObject then
    .ok (.ofFunction t.name t.description (Schema.sanitize t.inputSchema))
  else .error (.invalidTool (t.name ++ ": input schema must be a JSON object"))

def declareAll : List ListedTool → Except ToolFailure (List DeclaredTool)
  | [] => .ok []
  | t :: rest =>
    match t.declare with
    | .error f => .error f
    | .ok spec => (declareAll rest).map (spec :: ·)

end ListedTool

end DialogueEngine
