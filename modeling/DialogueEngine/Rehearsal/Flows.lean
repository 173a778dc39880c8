import DialogueEngine.Json.Value

/-!
Flow documents of common shapes, for trying out the engine. They are values as a file would hold
them, in which members with defaults are left out.
-/

namespace DialogueEngine.Rehearsal

/-- A node; `data` is left out where it is empty. -/
def node (id kind label : String) (data : List (String × Json)) : Json :=
  .object ((if data.isEmpty then [] else [("data", .object data)]) ++
    [("id", .string id), ("label", .string label), ("type", .string kind)])

def edge (id source target : String) : Json :=
  .object [("id", .string id), ("source", .string source), ("target", .string target)]

def labelledEdge (label id source target : String) : Json :=
  .object [("action", .string label), ("id", .string id), ("source", .string source),
    ("target", .string target)]

def binding (id source target : String) : Json :=
  .object [("id", .string id), ("source", .string source), ("target", .string target),
    ("type", .string "toolBinding")]

def flow (id name : String) (nodes edges : List Json) : Json :=
  .object [("edges", .array edges), ("id", .string id), ("name", .string name),
    ("nodes", .array nodes)]

def boundModel : String × Json := ("boundModel", .string "test-model")

/-- A start, an agent and a finish. -/
def plainFlow : Json :=
  flow "simple" "Simple assistant"
    [node "start" "start" "Start" [("promptTemplate", .string "You are a helpful assistant.")],
      node "agent" "process" "Agent" [boundModel, ("promptTemplate", .string "Answer briefly.")],
      node "finish" "finish" "Done" []]
    [edge "e1" "start" "agent", edge "e2" "agent" "finish"]

/-- The same with a provider bound to the agent. -/
def flowWithTools (requireApproval : Bool) : Json :=
  flow "tools" "Tool assistant"
    [node "start" "start" "Start" [],
      node "agent" "process" "Agent" [boundModel, ("requireApproval", .bool requireApproval)],
      node "search" "toolProvider" "Search" [("boundProvider", .string "search")],
      node "finish" "finish" "Done" []]
    [edge "e1" "start" "agent", edge "e2" "agent" "finish", binding "b1" "agent" "search"]

/-- An agent that hands off to one of two others. -/
def flowWithBranches : Json :=
  flow "branching" "Triage"
    [node "start" "start" "Start" [],
      node "triage" "process" "Triage" [boundModel, ("promptTemplate", .string "Route the user.")],
      node "billing" "process" "Billing" [boundModel],
      node "support" "process" "Support" [boundModel],
      node "finish" "finish" "Done" []]
    [edge "e1" "start" "triage", labelledEdge "billing" "e2" "triage" "billing",
      labelledEdge "support" "e3" "triage" "support", edge "e4" "billing" "finish",
      edge "e5" "support" "finish"]

end DialogueEngine.Rehearsal
