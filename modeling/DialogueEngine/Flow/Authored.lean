import DialogueEngine.Json.Reader

/-!
Flows as they are authored: nodes with untyped properties, and edges that either route control or
bind a provider of tools to a process. Both names of a kind are read; one is written.
-/

namespace DialogueEngine

open Json (Reader Record)

structure AuthoredNode where
  id : String
  label : String
  kind : String
  data : Json
  deriving DecidableEq, Repr, Inhabited

/-- What an edge is for. -/
inductive EdgeKind where
  /-- Control goes along it. -/
  | routing
  /-- It makes a provider's tools available to a process. -/
  | toolBinding
  deriving DecidableEq, Repr, Inhabited

structure AuthoredEdge where
  id : String
  source : String
  target : String
  kind : EdgeKind
  action : Option String
  deriving DecidableEq, Repr, Inhabited

structure AuthoredFlow where
  id : String
  name : String
  nodes : List AuthoredNode
  edges : List AuthoredEdge
  deriving DecidableEq, Repr, Inhabited

namespace AuthoredNode

def toJson (n : AuthoredNode) : Json :=
  .object [("data", n.data), ("id", .string n.id), ("label", .string n.label),
    ("type", .string n.kind)]

def read : Reader AuthoredNode :=
  Record.read "a node" [["id"], ["label"], ["type", "kind"], ["data"]] fun r =>
    AuthoredNode.mk <$> r.required "id" Reader.text <*> r.defaulted "label" "" Reader.text <*>
      r.required "type" Reader.text <*> r.defaulted "data" .null Reader.json

end AuthoredNode

namespace EdgeKind

def text : EdgeKind → String
  | .routing => "routing"
  | .toolBinding => "tool_binding"

def read : Reader EdgeKind :=
  Reader.choice [(["routing"], .routing), (["tool_binding", "toolBinding"], .toolBinding)]

end EdgeKind

namespace AuthoredEdge

/-- The label that an action has to match: the edge's own or else its id. -/
def label (e : AuthoredEdge) : String := e.action.getD e.id

def toJson (e : AuthoredEdge) : Json :=
  .object [("action", (e.action.map Json.string).getD .null), ("id", .string e.id),
    ("source", .string e.source), ("target", .string e.target), ("type", .string e.kind.text)]

def read : Reader AuthoredEdge :=
  Record.read "an edge" [["id"], ["source"], ["target"], ["type", "kind"], ["action"]]
    fun r =>
    AuthoredEdge.mk <$> r.required "id" Reader.text <*> r.required "source" Reader.text <*>
      r.required "target" Reader.text <*> r.defaulted "type" .routing EdgeKind.read <*>
      r.optional "action" Reader.text

end AuthoredEdge

namespace AuthoredFlow

def toJson (f : AuthoredFlow) : Json :=
  .object [("edges", .array (f.edges.map AuthoredEdge.toJson)), ("id", .string f.id),
    ("name", .string f.name), ("nodes", .array (f.nodes.map AuthoredNode.toJson))]

def read : Reader AuthoredFlow :=
  Record.read "a flow" [["id"], ["name"], ["nodes"], ["edges"]] fun r =>
    AuthoredFlow.mk <$> r.required "id" Reader.text <*> r.defaulted "name" "" Reader.text <*>
      r.defaulted "nodes" [] (Reader.list AuthoredNode.read) <*>
      r.defaulted "edges" [] (Reader.list AuthoredEdge.read)

end AuthoredFlow

end DialogueEngine
