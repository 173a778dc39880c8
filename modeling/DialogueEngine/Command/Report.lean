import DialogueEngine.Command.Basic

/-!
What commands print, line by line.
-/

namespace DialogueEngine

namespace Node

/-- The lines about a node: itself, its ways out, and what a process is bound to. -/
def report (n : Node) : List String :=
  let bound : List String := match n.spec with
    | .process spec =>
      (spec.model.toList.map fun model => "    model: " ++ model) ++
        spec.providerRefs.map fun r => "    tools: " ++ r.provider ++ " (via " ++ r.id ++ ")"
    | _ => []
  ("  " ++ n.id ++ " [" ++ n.spec.kind.text ++ "] " ++ n.name) ::
    (n.successors.map fun s => "    --" ++ s.label ++ "--> " ++ s.target) ++ bound

end Node

namespace Graph

/-- The nodes, providers apart, that no routing edges lead to from the start. -/
def unreachable (g : Graph) : List Node :=
  g.nodes.filter fun n => n.spec.kind ≠ .toolProvider && (g.reach? n.id).isNone

def report (g : Graph) : List String :=
  let lost := g.unreachable
  ("Flow " ++ g.flow ++ " (" ++ toString g.nodes.length ++ " nodes)") ::
    ("  start: " ++ g.start.id) :: g.nodes.flatMap Node.report ++
    if lost.isEmpty then []
    else ["  unreachable from start: " ++ Text.join ", " (lost.map (·.id))]

/-- The references of the processes, the first for each provider and choice of tools. -/
def providerRefs (g : Graph) : List ProviderRef :=
  let all := g.nodes.flatMap fun n => match n.spec with
    | .process spec => spec.providerRefs
    | _ => []
  all.foldl (fun kept r =>
    if kept.any fun k => k.provider = r.provider && k.enabledTools = r.enabledTools then kept
    else kept ++ [r]) []

end Graph

namespace Conversation

def report (c : Conversation) : String :=
  "  " ++ c.id ++ " flow=" ++ c.flow ++ " status=" ++ c.status.text ++ " steps=" ++
    toString c.steps ++
    if c.pending.isEmpty then "" else " (" ++ toString c.pending.length ++ " pending)"

/-- The lines about a call that has been decided about. -/
def decisionReport (c : Conversation) (call : ToolCall) (decision : Decision) : List String :=
  let verb := if decision = .approve then "Approved" else "Rejected"
  (verb ++ " " ++ call.id ++ " (" ++ call.name ++ ")") ::
    (c.messages.getLast?.toList.map fun m =>
      "  -> " ++ String.ofList (m.content.toList.take 200)) ++
    [if c.pending.isEmpty then "No calls pending; conversation status: " ++ c.status.text
      else toString c.pending.length ++ " call(s) still pending"]

end Conversation

namespace Usage

def helpLines : List String :=
  ["Usage: agentflow [-c <CONFIG>] <COMMAND>",
    "",
    "Commands:",
    "  validate <FLOW>",
    "  tools <FLOW>",
    "  conversations list",
    "  conversations show <ID>",
    "  conversations delete <ID>",
    "  approve <CONVERSATION> <TOOL_CALL>",
    "  reject <CONVERSATION> <TOOL_CALL> [--reason <REASON>]",
    "  cancel <CONVERSATION>"]

def versionLine : String := "agentflow 0.3.0"

end Usage

end DialogueEngine
