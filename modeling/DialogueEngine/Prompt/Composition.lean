import DialogueEngine.Text.Blank
import DialogueEngine.Text.Pieces

/-!
Composing a prompt: the parts that are not blank, trimmed, with an empty line between them.
-/

namespace DialogueEngine.Prompt

/-- Puts the parts of a prompt together. -/
def compose (parts : List (Option String)) : String :=
  Text.join "\n\n"
    ((parts.filterMap id).map Text.trim |>.filter fun part => !part.isEmpty)

end DialogueEngine.Prompt
