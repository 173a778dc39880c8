import DialogueEngine.Json.Reader

/-!
Routing actions. A node's turn ends with an action, which is written as a plain text: five texts
are reserved, and any other is the label of an edge. An action may also be an edge whose label is
spelt like a reserved one; reading its text gives the reserved action.
-/

namespace DialogueEngine

/-- What a node's turn ends with. -/
inductive Action where
  /-- Tool calls are pending; the node is entered again once they are resolved. -/
  | toolCall
  | finalResponse
  | error
  | stayOnNode
  /-- No further node. -/
  | default
  | edge (label : String)
  deriving DecidableEq, Repr, Inhabited

namespace Action

def text : Action → String
  | .toolCall => "TOOL_CALL"
  | .finalResponse => "FINAL_RESPONSE"
  | .error => "ERROR"
  | .stayOnNode => "STAY_ON_NODE"
  | .default => "default"
  | .edge label => label

def ofText (s : String) : Action :=
  if s = "TOOL_CALL" then .toolCall
  else if s = "FINAL_RESPONSE" then .finalResponse
  else if s = "ERROR" then .error
  else if s = "STAY_ON_NODE" then .stayOnNode
  else if s = "default" then .default
  else .edge s

/-- Whether the action runs the same node again. -/
def runsAgain : Action → Bool
  | .toolCall | .stayOnNode => true
  | _ => false

def toJson (a : Action) : Json := .string a.text

def read : Json.Reader Action := fun m s => (Json.Reader.text m s).map ofText

@[simp] theorem text_ofText (s : String) : (ofText s).text = s := by
  unfold ofText
  repeat' split
  all_goals simp_all [text]

end Action

end DialogueEngine
