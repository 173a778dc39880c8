import DialogueEngine.Flow.NodeSpec
import DialogueEngine.Action

/-!
Executable flows. A graph lists its nodes, each with its ways out in authored order, and knows its
start. `search` goes through the graph breadth first from the start: it keeps the nodes that it has
not visited, so that each way out is taken once and it ends on any graph.
-/

namespace DialogueEngine

/-- A way out of a node. -/
structure Successor where
  label : String
  target : String
  deriving DecidableEq, Inhabited

structure Node where
  id : String
  label : String
  spec : NodeSpec
  successors : List Successor
  deriving DecidableEq, Inhabited

namespace Node

/-- The name shown for a node. -/
def name (n : Node) : String := if n.label = "" then n.id else n.label

/-- The first way out with a label. -/
def successor? (n : Node) (label : String) : Option Successor :=
  n.successors.find? fun s => s.label = label

/-- The action of a node that has nothing particular to say: its first way out. -/
def fallbackAction (n : Node) : Action :=
  match n.successors with
  | s :: _ => .edge s.label
  | [] => .default

/-- The node that follows on an action. An action that enters again stays; an exact label comes
first, and what matches none takes the first way out. -/
def next (n : Node) (a : Action) : Option String :=
  if a.runsAgain then some n.id
  else if a = .error then none
  else
    match n.successor? a.text with
    | some s => some s.target
    | none =>
      if a = .default then none
      else n.successors.head?.map (·.target)

end Node

structure Graph where
  flow : String
  name : String
  nodes : List Node
  start : Node
  start_mem : start ∈ nodes
  deriving DecidableEq

namespace Graph

def node? (g : Graph) (id : String) : Option Node := g.nodes.find? fun n => n.id = id

/-- The nodes that do not have an id. -/
def without (id : String) (nodes : List Node) : List Node := nodes.filter fun n => n.id != id

/-- How many ways out the nodes have. -/
def waysOut : List Node → Nat
  | [] => 0
  | n :: rest => n.successors.length + waysOut rest

theorem waysOut_without_le (id : String) (nodes : List Node) :
    waysOut (without id nodes) ≤ waysOut nodes := by
  induction nodes with
  | nil => exact Nat.le_refl _
  | cons n rest ih =>
    by_cases same : n.id = id
    · rw [without, List.filter_cons_of_neg (by simp [same])]
      exact Nat.le_trans ih (Nat.le_add_left ..)
    · rw [without, List.filter_cons_of_pos (by simp [same])]
      exact Nat.add_le_add_left ih _

/-- The ways out of a node that is left behind are counted no longer. -/
theorem waysOut_without {n : Node} {id : String} {nodes : List Node}
    (found : nodes.find? (fun n => n.id = id) = some n) :
    waysOut (without id nodes) + n.successors.length ≤ waysOut nodes := by
  induction nodes with
  | nil => cases found
  | cons first rest ih =>
    by_cases same : first.id = id
    · obtain rfl : first = n := by simpa [same] using found
      rw [without, List.filter_cons_of_neg (by simp [same]), Nat.add_comm]
      exact Nat.add_le_add_left (waysOut_without_le id rest) _
    · rw [without, List.filter_cons_of_pos (by simp [same]), waysOut, waysOut, Nat.add_assoc]
      exact Nat.add_le_add_left (ih (by simpa [same] using found)) _

/-- Takes ids from the queue until `goal` is met; the nodes that have not been visited are at
hand. -/
def search (goal : String) (unseen : List Node) (queue : List String) : Option Node :=
  match queue with
  | [] => none
  | id :: later =>
    match _found : unseen.find? fun n => n.id = id with
    | none => search goal unseen later
    | some n =>
      if n.id = goal then some n
      else search goal (without id unseen) (later ++ n.successors.map (·.target))
  termination_by queue.length + waysOut unseen
  decreasing_by
    · simp
    · have fewer := waysOut_without _found
      simp only [List.length_cons, List.length_append, List.length_map]
      omega

/-- The node with an id, if routing edges lead to it from the start. -/
def reach? (g : Graph) (id : String) : Option Node := search id g.nodes [g.start.id]

/-- The node with an id, or the start if there is none. -/
def nodeAt (g : Graph) : Option String → Node
  | none => g.start
  | some id => (g.reach? id <|> g.node? id).getD g.start

end Graph

end DialogueEngine
