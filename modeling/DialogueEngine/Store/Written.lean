import DialogueEngine.Store.Basic

/-!
Rows as values, for a file that keeps them.
-/

namespace DialogueEngine.Row

open Json (Reader Record)

def toJson (r : Row) : Json :=
  .object [("flow_id", .string r.flow), ("id", .string r.id), ("state_json", .string r.document),
    ("status", .string r.status), ("updated_at", .string r.updatedAt)]

def read : Reader Row :=
  Record.read "a row" [["id"], ["flow_id"], ["status"], ["state_json"], ["updated_at"]]
    fun r =>
    Row.mk <$> r.required "id" Reader.text <*> r.required "flow_id" Reader.text <*>
      r.required "status" Reader.text <*> r.required "state_json" Reader.text <*>
      r.required "updated_at" Reader.text

/-- The text of a file that keeps rows. -/
def fileText (rows : List Row) : String := (Json.array (rows.map toJson)).write

/-- The rows of a file; an empty one keeps none. -/
def ofFileText (text : String) : Except String (List Row) :=
  if text = "" then .ok []
  else
    match (Reader.list read).ofText text with
    | .ok rows => .ok rows
    | .error _ => .error "file is not a database"

end DialogueEngine.Row
