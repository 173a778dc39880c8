import DialogueEngine.Conversation.Basic
import DialogueEngine.Json.Writer
import DialogueEngine.Prompt.Template

/-!
The names that a template of a conversation may use: its variables, a text standing for itself and
any other value for its written form, and three names that the engine sets whatever the variables
say.
-/

namespace DialogueEngine.Conversation

def variableText : Json → String
  | .string s => s
  | v => v.write

/-- The values of the names that a template may use. -/
def templateValues (c : Conversation) : Table String :=
  let own : Table String :=
    c.values.entries.foldl (fun t e => t.insert e.1 (variableText e.2)) ∅
  ((own.insert "conversation_id" c.id).insert "flow_id" c.flow).insert "last_user_message"
    (c.latestUserText.getD "")

end DialogueEngine.Conversation
