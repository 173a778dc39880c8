import DialogueEngine.Tool.Name
import DialogueEngine.Tool.Schema
import DialogueEngine.Flow.NodeSpec

/-!
Choosing tools. A listing becomes discovered tools with names of their own and accepted schemas,
the first of each name; a reference narrows a listing to the tools it enables.
-/

namespace DialogueEngine

namespace OfferedTool

def name (t : OfferedTool) : String := t.definition.name

/-- A listed tool after discovery. -/
def ofListed (provider : String) (t : ListedTool) : OfferedTool :=
  ⟨provider, t.name, ToolName.ofTool provider t.name, t.description,
    Schema.sanitize t.inputSchema⟩

/-- Keeps the first tool of each name that is not among those seen. -/
def distinct (seen : List String) : List OfferedTool → List OfferedTool
  | [] => []
  | t :: rest =>
    if seen.contains t.name then distinct seen rest else t :: distinct (t.name :: seen) rest

/-- The tools of a listing. -/
def ofListing (provider : String) (listing : List ListedTool) : List OfferedTool :=
  distinct [] (listing.map (ofListed provider))

end OfferedTool

namespace ProviderRef

/-- The tools of a listing that a reference enables. -/
def enabled (r : ProviderRef) (tools : List OfferedTool) : List OfferedTool :=
  if r.enabledTools.isEmpty then tools
  else tools.filter fun t => r.enabledTools.contains t.listedName

end ProviderRef

end DialogueEngine
