import DialogueEngine.Failure

/-!
Names under which the model calls tools. A provider's tool goes by a marker, the provider, the
marker again and the tool; a route that the model may take goes by a fixed front and the label of
the route with unsafe characters replaced.
-/

namespace DialogueEngine.ToolName

/-- The marker in front of the provider and of the tool. -/
def marker : String := "_-_-_"

theorem marker_ne_nil : marker.toList ≠ [] := by decide

/-- The front of the name of a route. -/
def handoffFront : String := "handoff_to_"

/-- The name of a provider's tool. -/
def ofTool (provider tool : String) : String := marker ++ provider ++ marker ++ tool

/-- The provider and the tool of a name: it must fall into exactly three pieces at the marker, of
which only the first is empty. -/
def split (name : String) : Except ToolFailure (String × String) :=
  match Text.splitAtMarker marker.toList marker_ne_nil name.toList with
  | [[], provider, tool] =>
    if provider ≠ [] ∧ tool ≠ [] then .ok (String.ofList provider, String.ofList tool)
    else .error (.invalidName name)
  | _ => .error (.invalidName name)

/-- Whether a character may stand in the name of a tool. -/
def isSafe (c : Char) : Bool := c.isAlphanum || c = '_' || c = '-'

def handoff (label : String) : String :=
  handoffFront ++ String.ofList (label.toList.map fun c => if isSafe c then c else '_')

def isRoute (name : String) : Bool := Text.beginsWith handoffFront name

end DialogueEngine.ToolName
