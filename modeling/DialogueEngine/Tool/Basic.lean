import DialogueEngine.Json.Reader

/-!
Tools: as a provider lists them, as they are kept after discovery, and as they are declared to the
model.
-/

namespace DialogueEngine

open Json (Reader Record)

/-- A tool as it is listed. -/
structure ListedTool where
  name : String
  description : String
  inputSchema : Json
  deriving DecidableEq, Repr, Inhabited

namespace ListedTool

def toJson (t : ListedTool) : Json :=
  .object [("description", .string t.description), ("input_schema", t.inputSchema),
    ("name", .string t.name)]

def read : Reader ListedTool :=
  Record.read "a listed tool" [["name"], ["description"], ["input_schema"]] fun r =>
    ListedTool.mk <$> r.required "name" Reader.text <*>
      r.defaulted "description" "" Reader.text <*> r.required "input_schema" Reader.json

end ListedTool

/-- A provider's tool after discovery. -/
structure OfferedTool where
  provider : String
  listedName : String
  definition : ListedTool
  deriving DecidableEq, Repr, Inhabited

namespace OfferedTool

def toJson (t : OfferedTool) : Json :=
  .object [("definition", t.definition.toJson), ("original_name", .string t.listedName),
    ("provider", .string t.provider)]

def read : Reader OfferedTool :=
  Record.read "an offered tool" [["provider"], ["original_name"], ["definition"]] fun r =>
    OfferedTool.mk <$> r.required "provider" Reader.text <*>
      r.required "original_name" Reader.text <*> r.required "definition" ListedTool.read

end OfferedTool

/-- The function that a declaration offers. -/
structure DeclaredFunction where
  name : String
  description : String
  parameters : Json
  deriving DecidableEq, Repr, Inhabited

/-- A tool as it is declared to the model. -/
structure DeclaredTool where
  kind : String
  function : DeclaredFunction
  deriving DecidableEq, Repr, Inhabited

namespace DeclaredFunction

def toJson (f : DeclaredFunction) : Json :=
  .object [("description", .string f.description), ("name", .string f.name),
    ("parameters", f.parameters)]

def read : Reader DeclaredFunction :=
  Record.read "a function" [["name"], ["description"], ["parameters"]] fun r =>
    DeclaredFunction.mk <$> r.required "name" Reader.text <*>
      r.required "description" Reader.text <*> r.required "parameters" Reader.json

end DeclaredFunction

namespace DeclaredTool

def ofFunction (name description : String) (parameters : Json) : DeclaredTool :=
  ⟨"function", name, description, parameters⟩

/-- The name that the model calls. -/
def name (t : DeclaredTool) : String := t.function.name

def toJson (t : DeclaredTool) : Json :=
  .object [("function", t.function.toJson), ("type", .string t.kind)]

def read : Reader DeclaredTool :=
  Record.read "a declaration" [["type"], ["function"]] fun r =>
    DeclaredTool.mk <$> r.required "type" Reader.text <*>
      r.required "function" DeclaredFunction.read

end DeclaredTool

end DialogueEngine
