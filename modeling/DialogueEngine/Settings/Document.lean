import DialogueEngine.Failure
import DialogueEngine.Settings.Basic
import DialogueEngine.Settings.Environment
import DialogueEngine.Toml.Document

/-!
Settings as a TOML document, in which references to the environment are expanded before it is read.
-/

namespace DialogueEngine.Settings

def ofText (env : Environment) (text : String) : Except Failure Settings :=
  let read? := do
    let entries ← Toml.document? (env.expand text.toList)
    (read .settings (Toml.Item.table .header entries).source).toOption
  match read? with
  | some settings => .ok settings
  | none => .error (.config "TOML parse error")

/-- Reads settings from a file: `content` is its text, if it can be read. -/
def ofFile (env : Environment) (path : String) (content : Option String) :
    Except Failure Settings :=
  match content with
  | some text => ofText env text
  | none => .error (.configNotFound path)

end DialogueEngine.Settings
