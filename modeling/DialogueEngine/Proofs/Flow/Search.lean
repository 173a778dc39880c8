import DialogueEngine.Command.Report
import DialogueEngine.Proofs.Flow.Exactness
import Mathlib.Logic.Relation

/-!
The search through a graph is exact. It finds a node if routing edges lead to it from the queue, by
way of nodes that are still unseen; a node that is left behind is needed no more, since a path that
comes back to it can be begun after its last visit.
-/

namespace DialogueEngine

open Relation (ReflTransGen)

namespace Graph

variable {nodes unseen : List Node} {a b id goal : String}

/-- A way out of the node with one id leads to another. -/
def Joins (nodes : List Node) (a b : String) : Prop :=
  ∃ node, nodes.find? (fun n => n.id = a) = some node ∧ ∃ s ∈ node.successors, s.target = b

theorem find_without_self (id : String) (nodes : List Node) :
    (without id nodes).find? (fun n => n.id = id) = none := by
  rw [List.find?_eq_none]
  intro node member
  simpa using (List.mem_filter.1 member).2

theorem find_without (other : a ≠ id) (nodes : List Node) :
    (without id nodes).find? (fun n => n.id = a) = nodes.find? (fun n => n.id = a) := by
  rw [without, List.find?_filter]
  congr
  funext n
  by_cases same : n.id = a
  · simp [same, other]
  · simp [same]

/-- What is left behind joins nothing any more, and all else is joined as it was. -/
theorem joins_without : Joins (without id nodes) a b ↔ a ≠ id ∧ Joins nodes a b := by
  by_cases same : a = id
  · subst same
    simp [Joins, find_without_self]
  · simp [Joins, find_without same, same]

/-- A path to another node avoids a node, or does so after its last visit there. -/
theorem path_without (other : goal ≠ id) (path : ReflTransGen (Joins nodes) a goal) :
    (a ≠ id ∧ ReflTransGen (Joins (without id nodes)) a goal) ∨
      ∃ b, Joins nodes id b ∧ ReflTransGen (Joins (without id nodes)) b goal := by
  induction path using ReflTransGen.head_induction_on with
  | refl => exact .inl ⟨other, .refl⟩
  | @head a c step _ ih =>
    rcases ih with ⟨-, avoids⟩ | later
    · by_cases visits : a = id
      · exact .inr ⟨c, visits ▸ step, avoids⟩
      · exact .inl ⟨visits, avoids.head (joins_without.2 ⟨visits, step⟩)⟩
    · exact .inr later

/-- What the search finds: the node with the id, if a path leads to it from the queue. -/
theorem search_eq_some_iff {queue : List String} {node : Node} :
    search goal unseen queue = some node ↔ unseen.find? (fun n => n.id = goal) = some node ∧
      ∃ id ∈ queue, ReflTransGen (Joins unseen) id goal := by
  fun_induction search goal unseen queue with
  | case1 => simp
  | case2 unseen id later absent ih =>
    rw [ih]
    refine and_congr_right fun listed => ⟨?_, ?_⟩
    · rintro ⟨first, waits, path⟩
      exact ⟨first, List.mem_cons_of_mem _ waits, path⟩
    · rintro ⟨first, waits, path⟩
      rcases List.mem_cons.1 waits with rfl | waits
      · -- an id without a node is neither the goal nor joined to anything
        rcases path.cases_head with rfl | ⟨_, ⟨_, found, -⟩, -⟩
        · cases absent.symm.trans listed
        · cases absent.symm.trans found
      · exact ⟨first, waits, path⟩
  | case3 unseen id later n present same =>
    obtain rfl : id = goal := (AuthoredFlow.id_of_find present).symm.trans same
    rw [present]
    exact ⟨fun found => ⟨found, id, List.mem_cons_self, .refl⟩, And.left⟩
  | case4 unseen id later n present other ih =>
    have named : n.id = id := AuthoredFlow.id_of_find present
    have other : goal ≠ id := fun same => other (named.trans same.symm)
    rw [ih, find_without other]
    refine and_congr_right fun _ => ⟨?_, ?_⟩
    · rintro ⟨first, waits, path⟩
      have path := ReflTransGen.mono (fun _ _ joined => (joins_without.1 joined).2) _ _ path
      rcases List.mem_append.1 waits with waits | leaves
      · exact ⟨first, List.mem_cons_of_mem _ waits, path⟩
      · obtain ⟨s, way, rfl⟩ := List.mem_map.1 leaves
        exact ⟨id, List.mem_cons_self, path.head ⟨n, present, s, way, rfl⟩⟩
    · rintro ⟨first, waits, path⟩
      rcases path_without other path with
        ⟨elsewhere, path⟩ | ⟨second, ⟨n', found, s, way, rfl⟩, path⟩
      · have waits := (List.mem_cons.1 waits).resolve_left elsewhere
        exact ⟨first, List.mem_append_left _ waits, path⟩
      · obtain rfl : n = n' := Option.some.inj (present.symm.trans found)
        exact ⟨s.target, List.mem_append_right _ (List.mem_map_of_mem way), path⟩

theorem reach?_eq_some_iff {g : Graph} {node : Node} : g.reach? id = some node ↔
    g.node? id = some node ∧ ReflTransGen (Joins g.nodes) g.start.id id := by
  unfold reach? node?
  simp [search_eq_some_iff]

/-- Looking among the nodes in reach first makes no difference. -/
theorem reach?_orElse_node? (g : Graph) (id : String) :
    (g.reach? id <|> g.node? id) = g.node? id := by
  cases reached : g.reach? id with
  | none => rfl
  | some node => exact (reach?_eq_some_iff.1 reached).1.symm

/-- The node to go on at is the one with the id, wherever it is, or else the start. -/
theorem nodeAt_some (g : Graph) (id : String) :
    g.nodeAt (some id) = (g.node? id).getD g.start := by
  rw [nodeAt, g.reach?_orElse_node? id]

end Graph

namespace AuthoredFlow

variable {f : AuthoredFlow} {g : Graph}

/-- A routing edge leads from one id to another. -/
def Routes (f : AuthoredFlow) (a b : String) : Prop :=
  ∃ e ∈ f.edges, e.kind = .routing ∧ e.source = a ∧ e.target = b

/-- The nodes of a converted flow are joined as its routing edges say. -/
theorem joins_of_toGraph (converted : f.toGraph = .ok g) : Graph.Joins g.nodes = f.Routes := by
  obtain ⟨convertible, describes⟩ := convertible_of_toGraph converted
  funext a b
  refine propext ⟨?_, ?_⟩
  · rintro ⟨node, found, s, way, rfl⟩
    obtain ⟨member, rfl⟩ := (describes.found a node).1 found
    rw [successors_of_toGraph converted member] at way
    obtain ⟨e, leaves, rfl⟩ := List.mem_map.1 way
    obtain ⟨authored, routing⟩ := List.mem_filter.1 leaves
    obtain ⟨kind, source⟩ := of_decide_eq_true routing
    exact ⟨e, authored, kind, source, rfl⟩
  · rintro ⟨e, authored, kind, rfl, rfl⟩
    have source := (convertible.joined e authored kind).1
    rw [← ids_of_becomes describes.nodes] at source
    obtain ⟨node, member, named⟩ := List.mem_map.1 source
    refine ⟨node, (describes.found _ node).2 ⟨member, named⟩, ⟨e.label, e.target⟩, ?_, rfl⟩
    rw [successors_of_toGraph converted member, named]
    exact List.mem_map_of_mem (List.mem_filter.2 ⟨authored, by simp [kind]⟩)

/-- In a converted flow the search finds the node with an id exactly if routing edges lead to it
from the start. Going on looks a node up by its id, wherever it is, and what is reported to be out
of reach are the nodes, providers of tools apart, that no routing edges lead to. -/
theorem toGraph_search_exact (converted : f.toGraph = .ok g) :
    (∀ id node, g.node? id = some node ↔ node ∈ g.nodes ∧ node.id = id) ∧
    (∀ id node, g.reach? id = some node ↔
      (node ∈ g.nodes ∧ node.id = id) ∧ ReflTransGen f.Routes g.start.id id) ∧
    (∀ id, (g.reach? id <|> g.node? id) = g.node? id ∧
      g.nodeAt (some id) = (g.node? id).getD g.start) ∧
    (g.unreachable.Sublist g.nodes ∧ ∀ node, node ∈ g.unreachable ↔
      node ∈ g.nodes ∧ node.spec.kind ≠ .toolProvider ∧
        ¬ ReflTransGen f.Routes g.start.id node.id) ∧
    g.report = ("Flow " ++ g.flow ++ " (" ++ toString g.nodes.length ++ " nodes)") ::
      ("  start: " ++ g.start.id) :: g.nodes.flatMap Node.report ++
      if g.unreachable.isEmpty then []
      else ["  unreachable from start: " ++ Text.join ", " (g.unreachable.map (·.id))] := by
  have found := (convertible_of_toGraph converted).2.found
  have reached : ∀ id node, g.reach? id = some node ↔
      (node ∈ g.nodes ∧ node.id = id) ∧ ReflTransGen f.Routes g.start.id id := by
    intro id node
    rw [Graph.reach?_eq_some_iff, joins_of_toGraph converted, found]
  have missed : ∀ node ∈ g.nodes,
      (g.reach? node.id = none ↔ ¬ ReflTransGen f.Routes g.start.id node.id) := by
    intro node member
    rw [Option.eq_none_iff_forall_ne_some]
    constructor
    · exact fun missed path => missed node ((reached _ _).2 ⟨⟨member, rfl⟩, path⟩)
    · exact fun apart other found => apart ((reached _ _).1 found).2
  refine ⟨found, reached, fun id => ⟨g.reach?_orElse_node? id, g.nodeAt_some id⟩,
    ⟨List.filter_sublist, fun node => ?_⟩, rfl⟩
  simp only [Graph.unreachable, List.mem_filter, Bool.and_eq_true, decide_eq_true_eq,
    Option.isNone_iff_eq_none]
  exact and_congr_right fun member => and_congr_right fun _ => missed node member

/-- A flow with a process that goes back to itself and to the start, two ways to its finish, and a
process that leads into it but that nothing leads to. -/
def loopFlow : AuthoredFlow where
  id := "loop"
  name := "Loop"
  nodes := [⟨"f", "F", "finish", .null⟩,
    ⟨"q", "Q", "process", .object [("boundModel", .string "m")]⟩,
    ⟨"p", "P", "process", .object [("boundModel", .string "m")]⟩,
    ⟨"t", "T", "toolProvider", .object [("boundProvider", .string "search")]⟩,
    ⟨"s", "S", "start", .null⟩]
  edges := [⟨"e1", "s", "p", .routing, none⟩, ⟨"e2", "p", "p", .routing, some "again"⟩,
    ⟨"e3", "p", "s", .routing, some "back"⟩, ⟨"e4", "p", "f", .routing, some "done"⟩,
    ⟨"e5", "p", "f", .routing, some "over"⟩, ⟨"e6", "q", "q", .routing, none⟩,
    ⟨"e7", "q", "p", .routing, none⟩, ⟨"b1", "p", "t", .toolBinding, none⟩]

theorem loopFlow_search_exact : ∃ g, loopFlow.toGraph = .ok g ∧
    g.unreachable.map (·.id) = ["q"] ∧ (∃ node, g.reach? "f" = some node ∧ node.id = "f") ∧
    g.reach? "q" = none ∧ (g.node? "q").isSome ∧ ¬ ReflTransGen loopFlow.Routes "s" "q" := by
  have evaluated : (loopFlow.toGraph.toOption.map fun g =>
      (g.start.id, g.unreachable.map (·.id), g.nodes.map (·.id))) =
      some ("s", ["q"], ["f", "q", "p", "t", "s"]) := by decide +kernel
  have path : ReflTransGen loopFlow.Routes "s" "f" := by
    have first : loopFlow.Routes "s" "p" :=
      ⟨⟨"e1", "s", "p", .routing, none⟩, by decide, rfl, rfl, rfl⟩
    have second : loopFlow.Routes "p" "f" :=
      ⟨⟨"e4", "p", "f", .routing, some "done"⟩, by decide, rfl, rfl, rfl⟩
    exact .tail (.single first) second
  cases converted : loopFlow.toGraph with
  | error cause =>
    rw [converted] at evaluated
    cases evaluated
  | ok g =>
    rw [converted] at evaluated
    obtain ⟨start, lost, ids⟩ : g.start.id = "s" ∧ g.unreachable.map (·.id) = ["q"] ∧
        g.nodes.map (·.id) = ["f", "q", "p", "t", "s"] := by
      simpa [Except.toOption] using evaluated
    obtain ⟨found, reached, -, ⟨-, unreachable⟩, -⟩ := toGraph_search_exact converted
    rw [start] at reached unreachable
    obtain ⟨node, member, named⟩ : ∃ node ∈ g.nodes, node.id = "f" :=
      List.mem_map.1 (ids ▸ by decide)
    obtain ⟨q, apart, named'⟩ : ∃ node ∈ g.unreachable, node.id = "q" :=
      List.mem_map.1 (lost ▸ by decide)
    obtain ⟨member', -, unrouted⟩ := (unreachable q).1 apart
    rw [named'] at unrouted
    refine ⟨g, rfl, lost, ⟨node, (reached _ _).2 ⟨⟨member, named⟩, path⟩, named⟩, ?_, ?_, unrouted⟩
    · exact Option.eq_none_iff_forall_ne_some.2 fun _ found => unrouted ((reached _ _).1 found).2
    · rw [(found "q" q).2 ⟨member', named'⟩]
      rfl

end AuthoredFlow

end DialogueEngine
