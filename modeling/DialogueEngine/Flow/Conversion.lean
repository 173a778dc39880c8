import DialogueEngine.Flow.Authored
import DialogueEngine.Flow.Graph

/-!
Making a graph from an authored flow. Nodes are typed in order and must have ids of their own;
routing edges must join nodes; bindings add their providers to the processes they touch, each id
once; and there must be exactly one start. The first thing wrong, in this order, is reported.
-/

namespace DialogueEngine

namespace AuthoredFlow

/-- Types the nodes in order; an id that has been met is refused. -/
def typeNodes (met : List String) : List AuthoredNode → Except GraphFailure (List Node)
  | [] => .ok []
  | n :: rest =>
    match NodeSpec.parse n.id n.kind n.data with
    | .error (.node cause) => .error cause.toGraph
    | .error (.document fault) => .error (.invalidProperties n.id (Failure.faultText fault))
    | .ok spec =>
      if met.contains n.id then .error (.invalidProperties n.id "duplicate node id")
      else (typeNodes (n.id :: met) rest).map (⟨n.id, n.label, spec, []⟩ :: ·)

/-- Refuses a routing edge with an end that is no node. -/
def checkEdges (ids : List String) : List AuthoredEdge → Except GraphFailure Unit
  | [] => .ok ()
  | e :: rest =>
    match e.kind with
    | .toolBinding => checkEdges ids rest
    | .routing =>
      if !ids.contains e.source then .error (.danglingEdge e.id e.source)
      else if !ids.contains e.target then .error (.danglingEdge e.id e.target)
      else checkEdges ids rest

/-- The ways out of a node, in authored order. -/
def successorsOf (edges : List AuthoredEdge) (id : String) : List Successor :=
  edges.filterMap fun e =>
    if e.kind = .routing ∧ e.source = id then some ⟨e.label, e.target⟩ else none

/-- The reference to a node that provides tools, if it has a provider. -/
def refOf? (n : Node) : Option ProviderRef :=
  match n.spec with
  | .toolProvider spec =>
    (given? spec.provider).map fun provider => ⟨n.id, provider, spec.enabledTools, spec.env⟩
  | _ => none

/-- What a binding adds: the process and the reference. Either direction binds. -/
def binding? (nodes : List Node) (e : AuthoredEdge) : Option (String × ProviderRef) :=
  match e.kind with
  | .routing => none
  | .toolBinding =>
    match nodes.find? (fun n => n.id = e.source), nodes.find? (fun n => n.id = e.target) with
    | some a, some b =>
      match a.spec, b.spec with
      | .process _, .toolProvider _ => (refOf? b).map fun r => (a.id, r)
      | .toolProvider _, .process _ => (refOf? a).map fun r => (b.id, r)
      | _, _ => none
    | _, _ => none

/-- Adds a reference unless one with its id is there. -/
def addRef (refs : List ProviderRef) (r : ProviderRef) : List ProviderRef :=
  if refs.any (fun other => other.id = r.id) then refs else refs ++ [r]

/-- A node with its ways out and the references that bindings add. -/
def connect (edges : List AuthoredEdge) (bindings : List (String × ProviderRef)) (n : Node) :
    Node :=
  let spec := match n.spec with
    | .process spec =>
      let added := (bindings.filter fun b => b.1 = n.id).map (·.2)
      .process { spec with providerRefs := added.foldl addRef spec.providerRefs }
    | other => other
  { n with spec, successors := successorsOf edges n.id }

def isStart (n : Node) : Bool := n.spec.kind = .start

def graphOf (f : AuthoredFlow) (nodes : List Node) : Except GraphFailure Graph :=
  match starts : nodes.filter isStart with
  | [] => .error .noStart
  | [start] =>
    .ok ⟨f.id, f.name, nodes, start, (List.mem_filter.1 (starts ▸ List.mem_singleton_self start)).1⟩
  | many => .error (.severalStarts (many.map (·.id)))

def toGraph (f : AuthoredFlow) : Except GraphFailure Graph := do
  let nodes ← typeNodes [] f.nodes
  checkEdges (nodes.map (·.id)) f.edges
  let bindings := f.edges.filterMap (binding? nodes)
  graphOf f (nodes.map (connect f.edges bindings))

end AuthoredFlow

end DialogueEngine
