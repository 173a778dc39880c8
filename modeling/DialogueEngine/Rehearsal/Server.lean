import DialogueEngine.Provider.Pool

/-!
Servers that follow a script. Every start of a script runs it afresh; a call of a tool takes the
next entry of that tool, and the last entry stays. A script may refuse the greeting or the listing,
tell that its tools changed, leave a call without an answer, or exit in the middle of one.
-/

namespace DialogueEngine.Rehearsal

-- Powers are those of the core library, whatever else is imported.
attribute [local instance (high)] instPowNat

open Json (Reader)

/-- The text of a refusal with a code. -/
def refusalText (v : Json) : String :=
  let data := match v.get? "data" with
    | none | some .null => ""
    | some d => "(" ++ d.write ++ ")"
  "Mcp error: " ++ ((v.get? "code").getD .null).write ++ ": " ++
    ((v.get? "message").bind Json.text?).getD "" ++ data

/-- What an entry of a script does with a call. -/
inductive Deed where
  | answer (content : List Content) (isError : Bool)
  | refuse (reason : String)
  /-- Answer with the arguments. -/
  | echo
  /-- Answer with a variable of the environment. -/
  | reveal (name : String)
  | exit
  /-- Give no answer. -/
  | hang

/-- An entry of a script. -/
structure Entry where
  /-- How often it tells first that the tools changed. -/
  changes : Nat
  /-- Whether it exits instead, the first time it is met. -/
  exitsOnce : Bool
  deed : Deed

/-- A script. -/
structure Script where
  /-- What the greeting fails with, if it fails. -/
  greetingFailure : Option String
  /-- The tools, or what a listing of them fails with. -/
  tools : Except String (List ListedTool)
  calls : Table (List Entry)

namespace Script

/-- The value of a member, if there is one that is not null. -/
def given? (v : Json) (key : String) : Option Json :=
  match v.get? key with
  | none | some .null => none
  | some x => some x

def holds (v : Json) (key : String) : Bool := v.get? key = some (.bool true)

/-- The text of a member. -/
def textOf (v : Json) (key : String) : String := ((v.get? key).bind Json.text?).getD ""

/-- The items of a member. -/
def itemsOf (v : Json) (key : String) : List Json :=
  match v.get? key with
  | some (.array items) => items
  | _ => []

/-- The text of a member that must be there. -/
def text? (v : Json) (key : String) : Option String := (v.get? key).bind Json.text?

/-- The text of a member that must be there, as it is shown. -/
def shownText? (v : Json) (key : String) : Option String := (text? v key).map Text.shown

/-- A text that may be left out, as it is shown. -/
def shownChoice? (v : Json) (key : String) : Option String :=
  match given? v key with
  | none => some "None"
  | some x => x.text?.map fun s => "Some(" ++ Text.shown s ++ ")"

/-- A number that may be left out, as it is shown. -/
def shownSize? (v : Json) (key : String) : Option String :=
  match given? v key with
  | none => some "None"
  | some (.number (.int n)) =>
    if 0 ≤ n ∧ n < 2 ^ (32 : Nat) then some ("Some(" ++ toString n.toNat ++ ")") else none
  | some _ => none

/-- Named fields as they are shown. -/
def shownFields (name : String) (fields : List (String × String)) : String :=
  name ++ " \x7b " ++ Text.join ", " (fields.map fun f => f.1 ++ ": " ++ f.2) ++ " \x7d"

/-- A piece of data with its type, as it is shown. -/
def shownData? (name : String) (more : List (String × String)) (v : Json) : Option String := do
  let data ← shownText? v "data"
  let type ← shownText? v "mimeType"
  return shownFields name ([("data", data), ("mime_type", type)] ++ more)

/-- A resource with its content, which is a text or else coded, as it is shown. -/
def shownResource? (v : Json) : Option String := do
  let uri ← shownText? v "uri"
  let type ← shownChoice? v "mimeType"
  let (name, key, body) ← match shownText? v "text" with
    | some body => some ("TextResourceContents", "text", body)
    | none => (shownText? v "blob").map fun body => ("BlobResourceContents", "blob", body)
  return shownFields name
    [("uri", uri), ("mime_type", type), (key, body), ("meta", "None")]

/-- A reference to a resource, as it is shown. -/
def shownLink? (v : Json) : Option String := do
  let uri ← shownText? v "uri"
  let name ← shownText? v "name"
  let title ← shownChoice? v "title"
  let description ← shownChoice? v "description"
  let type ← shownChoice? v "mimeType"
  let size ← shownSize? v "size"
  return shownFields "RawResource"
    [("uri", uri), ("name", name), ("title", title), ("description", description),
      ("mime_type", type), ("size", size), ("icons", "None"), ("meta", "None")]

/-- A piece of an answer, if it is of a kind that is known and has all that its kind needs. -/
def content? (v : Json) : Option Content :=
  let other (name : String) (shown : Option String) : Option Content :=
    shown.map fun s => .other (name ++ "(" ++ s ++ ")")
  match textOf v "type" with
  | "text" => (text? v "text").map .text
  | "image" => other "Image" (shownData? "RawImageContent" [("meta", "None")] v)
  | "audio" => other "Audio" (shownData? "RawAudioContent" [] v)
  | "resource" => other "Resource" do
    let resource ← shownResource? (← v.get? "resource")
    return shownFields "RawEmbeddedResource" [("meta", "None"), ("resource", resource)]
  | "resource_link" => other "ResourceLink" (shownLink? v)
  | _ => none

def deed (v : Json) : Deed :=
  if holds v "exit" then .exit
  else if holds v "hang" then .hang
  else if holds v "echo" then .echo
  else
    match given? v "env", given? v "error" with
    | some (.string name), _ => .reveal name
    | _, some e => .refuse (refusalText e)
    | _, none =>
      match (itemsOf v "content").mapM content? with
      | some content => .answer content (holds v "is_error")
      | none => .refuse "Unexpected response type"

def entry (v : Json) : Entry where
  changes := (itemsOf v "notify").countP fun notice =>
    match notice with
    | .array (.string "notifications/tools/list_changed" :: _) => true
    | _ => false
  exitsOnce := holds v "exit_once"
  deed := deed v

/-- A listed tool; its schema is an object. -/
def tool (v : Json) : Option ListedTool := do
  let name ← (v.get? "name").bind Json.text?
  let description ← match given? v "description" with
    | none => some ""
    | some x => x.text?
  match v.get? "inputSchema" with
  | some (.object ms) => some ⟨name, description, .object ms⟩
  | _ => none

def ofJson (v : Json) : Script where
  greetingFailure :=
    if holds v "dead" then some "connection closed" else (given? v "init_error").map refusalText
  tools :=
    match given? v "list_error" with
    | some e => .error (refusalText e)
    | none =>
      match (itemsOf v "tools").mapM tool with
      | some tools => .ok tools
      | none => .error "Unexpected response type"
  calls := Table.ofList (((v.get? "calls").getD .null).members.map fun (name, entries) =>
    (name, match entries with
      | .array items => items.map entry
      | _ => []))

end Script

/-- A script that was started. -/
structure Actor where
  server : String
  script : Script
  env : Table String
  alive : Bool
  /-- How often each tool was called. -/
  calls : Table Nat

/-- The scripts that were started, in order; their places number the sessions. -/
structure Cast where
  actors : List Actor
  /-- The servers and tools whose entry has exited once. -/
  exited : List (String × String)

namespace Cast

/-- Nothing has been started. -/
def empty : Cast := ⟨[], []⟩

/-- The program that follows a script. -/
def program : String := "/stub/server"

/-- The arguments of the program for a script. -/
def arguments (script : Json) : List String := ["--mcp-stub", script.write]

/-- Programs that start and do not greet. -/
def silentPrograms : List String :=
  ["true", "false", "echo", "cat", "ls", "sh", "bash", "env", "sleep", "/bin/true", "/bin/false",
    "/bin/sh", "/usr/bin/env"]

def launch (server command : String) (args : List String) (env : Table String) (c : Cast) :
    Except ConnectFailure Nat × Cast :=
  if command = program then
    let script := match args with
      | [_, text] => (Reader.json.ofText text).toOption.getD .null
      | _ => .null
    let script := Script.ofJson script
    match script.greetingFailure with
    | some reason => (.error (.greeting reason), c)
    | none =>
      (.ok c.actors.length, { c with actors := c.actors ++ [⟨server, script, env, true, ∅⟩] })
  else if silentPrograms.contains command then (.error (.greeting "connection closed"), c)
  else if command = "/" || command = "/tmp" then
    (.error (.spawn "Permission denied (os error 13)"), c)
  else (.error (.spawn "No such file or directory (os error 2)"), c)

def set (session : Nat) (a : Actor) (c : Cast) : Cast :=
  { c with actors := c.actors.set session a }

def listing (c : Cast) (session : Nat) : Except String (List ListedTool) :=
  match c.actors[session]? with
  | none => .error "Transport closed"
  | some a => if a.alive then a.script.tools else .error "Transport closed"

/-- What an actor answers by a deed; none where it exits. -/
def act (a : Actor) (given : Option Json) : Deed → Option CallReply
  | .answer content isError => some (.answered content isError)
  | .refuse reason => some (.failed reason)
  | .echo => some (.answered [.text ((given.map Json.write).getD "<none>")] false)
  | .reveal name => some (.answered [.text ((a.env.get? name).getD "<unset>")] false)
  | .exit => none
  | .hang => some .late

/-- Tells the pool so many times that the tools of a server changed. -/
def announce (server : String) : Nat → Pool → Pool
  | 0, p => p
  | n + 1, p => announce server n (p.countChange server)

def call (session : Nat) (tool : String) (given : Option Json) (p : Pool) (c : Cast) :
    CallReply × Pool × Cast :=
  match c.actors[session]? with
  | none => (.failed "Transport closed", p, c)
  | some a =>
    let entries := (a.script.calls.get? tool).getD []
    let n := (a.calls.get? tool).getD 0
    match entries[min n (entries.length - 1)]?, a.alive with
    | _, false => (.failed "Transport closed", p, c)
    | none, true => (.failed "Mcp error: -32602: tool not found", p, c)
    | some e, true =>
      let a := { a with calls := a.calls.insert tool (n + 1) }
      let p := announce a.server e.changes p
      let deed := if e.exitsOnce && !c.exited.contains (a.server, tool) then .exit else e.deed
      match act a given deed with
      | some reply => (reply, p, c.set session a)
      | none =>
        (.failed "Transport closed", p,
          { c.set session { a with alive := false } with
            exited := (a.server, tool) :: c.exited })

def close (session : Nat) (c : Cast) : Cast :=
  match c.actors[session]? with
  | none => c
  | some a => c.set session { a with alive := false }

/-- Answers the requests of a pool; nobody answers on the network. -/
def answer (q : ServerRequest) (p : Pool) (c : Cast) : ServerReply q × Pool × Cast :=
  match q with
  | .launch server command args env =>
    let (reply, c) := c.launch server command args env
    (reply, p, c)
  | .dial _ _ => (.error (.greeting "no answer"), p, c)
  | .listing session => (c.listing session, p, c)
  | .call session tool given _ => c.call session tool given p
  | .close session => ((), p, c.close session)

end Cast

end DialogueEngine.Rehearsal
