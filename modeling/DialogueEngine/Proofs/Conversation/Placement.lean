import DialogueEngine.Proofs.Conversation.Extension
import DialogueEngine.Proofs.Flow.Search

/-!
Where conversations stand. A converted flow has nodes with ids of their own, and its ways out lead
to nodes. A conversation stands within a graph if the nodes that it names as its next and its
current one are nodes of it; it then goes on exactly there, and whatever an operation makes of it
stands within the graph again.
-/

namespace DialogueEngine

/-! ## Graphs -/

namespace Graph

variable {g : Graph} {id : String}

/-- The graph has a node with an id. -/
def Has (g : Graph) (id : String) : Prop := ∃ node ∈ g.nodes, node.id = id

/-- Nodes have ids of their own, and ways out lead to nodes. -/
structure Formed (g : Graph) : Prop where
  distinct : (g.nodes.map (·.id)).Nodup
  joined : ∀ node ∈ g.nodes, ∀ s ∈ node.successors, g.Has s.target

theorem formed_of_toGraph {f : AuthoredFlow} (converted : f.toGraph = .ok g) : g.Formed := by
  obtain ⟨convertible, describes⟩ := AuthoredFlow.convertible_of_toGraph converted
  have ids : g.nodes.map (·.id) = f.nodes.map (·.id) :=
    AuthoredFlow.ids_of_becomes describes.nodes
  refine ⟨by rw [ids]; exact convertible.distinct, fun node member s way => ?_⟩
  rw [AuthoredFlow.successors_of_toGraph converted member] at way
  obtain ⟨e, leaves, rfl⟩ := List.mem_map.1 way
  obtain ⟨authored, routing⟩ := List.mem_filter.1 leaves
  have target := (convertible.joined e authored (by simpa using (of_decide_eq_true routing).1)).2
  rw [← ids] at target
  exact List.mem_map.1 target

/-- The node to go on at is the one that is asked for, if there is one. -/
theorem nodeAt_id (has : g.Has id) : (g.nodeAt (some id)).id = id := by
  obtain ⟨node, member, same⟩ := has
  have listed : (g.node? id).isSome := List.find?_isSome.2 ⟨node, member, by simpa using same⟩
  obtain ⟨found, kept⟩ := Option.isSome_iff_exists.1 listed
  rw [g.nodeAt_some id, kept, Option.getD_some]
  exact AuthoredFlow.id_of_find kept

end Graph

/-! ## The next node -/

namespace Node

variable {node : Node} {g : Graph}

/-- Which node follows on an action, from the ways out in their order. -/
structure Leads (node : Node) (a : Action) (next : Option String) : Prop where
  again (runs : a = .toolCall ∨ a = .stayOnNode) : next = some node.id
  labelled (goes : a ≠ .toolCall) (leaves : a ≠ .stayOnNode) {front back : List Successor}
    {s : Successor} (split : node.successors = front ++ s :: back) (label : s.label = a.text)
    (first : ∀ s' ∈ front, s'.label ≠ a.text) : next = some s.target
  halts (default : a = .default) (none : ∀ s ∈ node.successors, s.label ≠ a.text) : next = .none
  falls (goes : a ≠ .toolCall) (leaves : a ≠ .stayOnNode) (named : a ≠ .default)
    (none : ∀ s ∈ node.successors, s.label ≠ a.text) :
    next = node.successors.head?.map (·.target)

/-- A node goes on as its ways out say, unless it has failed. -/
theorem leads_next (node : Node) {a : Action} (sound : a ≠ .error) :
    node.Leads a (node.next a) where
  again runs := by rcases runs with rfl | rfl <;> rfl
  labelled goes leaves {front back s} split label first := by
    have found : node.successor? a.text = some s := by
      have passed : front.find? (fun s' => decide (s'.label = a.text)) = none :=
        List.find?_eq_none.2 fun s' member => by simpa using first s' member
      simp [successor?, split, List.find?_append, passed, label]
    cases a <;> simp_all [Node.next, Action.runsAgain]
  halts default none := by
    subst default
    have missing : node.successor? Action.default.text = .none :=
      List.find?_eq_none.2 fun s member => by simpa using none s member
    simp [Node.next, Action.runsAgain, missing]
  falls goes leaves named none := by
    have missing : node.successor? a.text = .none :=
      List.find?_eq_none.2 fun s member => by simpa using none s member
    cases a <;> simp_all [Node.next, Action.runsAgain]

/-- What follows a node is a node. -/
theorem next_has (formed : g.Formed) (member : node ∈ g.nodes) {a : Action} {id : String}
    (follows : node.next a = some id) : g.Has id := by
  unfold Node.next at follows
  split at follows
  · cases follows
    exact ⟨node, member, rfl⟩
  split at follows
  · cases follows
  split at follows
  · next s found =>
    cases follows
    exact formed.joined node member s (List.mem_of_find?_eq_some found)
  · split at follows
    · cases follows
    · obtain ⟨s, first, rfl⟩ := Option.map_eq_some_iff.1 follows
      exact formed.joined node member s (List.mem_of_mem_head? first)

end Node

/-! ## Conversations -/

namespace Conversation

variable {c c' : Conversation} {g : Graph} {node : Node}

/-- The nodes that a conversation names are nodes of the graph. -/
structure Within (g : Graph) (c : Conversation) : Prop where
  next : ∀ id, c.next = some id → g.Has id
  current : ∀ id, c.current = some id → g.Has id

theorem Within.of_same (within : c.Within g) (next : c'.next = c.next)
    (current : c'.current = c.current) : c'.Within g where
  next := by rw [next]; exact within.next
  current := by rw [current]; exact within.current

/-- A conversation that names no next node, and no other current one. -/
theorem Within.halted (within : c.Within g) (next : c'.next = none)
    (current : c'.current = c.current) : c'.Within g where
  next := by rw [next]; nofun
  current := by rw [current]; exact within.current

theorem within_fresh (g : Graph) (id flow : String) (now : Instant) (debugMode : Bool) :
    ({ Conversation.fresh id flow now with debugMode } : Conversation).Within g :=
  ⟨nofun, nofun⟩

/-- A conversation goes on at the node that it names next, else at its current one, else at the
start. -/
theorem Within.nodeAt_id (within : c.Within g) :
    (g.nodeAt (c.next <|> c.current)).id = (c.next <|> c.current).getD g.start.id := by
  cases goal : (c.next <|> c.current) with
  | none => rfl
  | some id =>
    refine Graph.nodeAt_id ?_
    cases following : c.next with
    | some other =>
      obtain rfl : other = id := by simpa [following] using goal
      exact within.next other following
    | none => exact within.current id (by simpa [following] using goal)

theorem reopen_current (c : Conversation) : c.reopen.current = c.current := by
  unfold reopen
  split <;> rfl

theorem Amends.within (amends : c.Amends c') (within : c.Within g) : c'.Within g := by
  cases amends with
  | cancelled now => exact within.of_same rfl rfl
  | recording enabled now => exact within.of_same rfl rfl
  | posted role now => exact within.of_same (reopen_next _) (reopen_current _)
  | resolved found m later =>
    obtain ⟨others, -, rfl⟩ := takeCall_spec found
    exact within.of_same rfl rfl
  | givenUp f now => exact within.halted rfl rfl
  | refused f => exact within.of_same rfl rfl

/-- The resume point of a conversation is a node. -/
theorem answeringNode_has (c : Conversation) (g : Graph) : g.Has (c.answeringNode g) := by
  unfold answeringNode
  extract_lets spoke nodes
  cases found : nodes.find? fun n => n.spec.kind = .process with
  | none => exact ⟨g.start, g.start_mem, rfl⟩
  | some n =>
    obtain ⟨id, -, known⟩ := List.mem_filterMap.1 (List.mem_of_find?_eq_some found)
    exact ⟨n, List.mem_of_find?_eq_some known, rfl⟩

theorem Within.rewound (within : c.Within g) (m : Message) (now : Instant) :
    (((c.push m now).rewind g).reopen).Within g where
  next := by
    rintro id same
    rw [reopen_next] at same
    cases same
    exact answeringNode_has _ g
  current := by
    rw [reopen_current]
    exact within.current

/-! ## Steps -/

theorem conclude_next (c : Conversation) (node : Node) (run : Visit) (before : Option Json)
    (noted now : Instant) : (c.conclude node run before noted now).next = node.next run.action := by
  cases before with
  | none => rfl
  | some before =>
    simp only [conclude, noteRun, record, touch]
    split <;> rfl

theorem conclude_current (c : Conversation) (node : Node) (run : Visit) (before : Option Json)
    (noted now : Instant) : (c.conclude node run before noted now).current = c.current := by
  cases before with
  | none => rfl
  | some before =>
    simp only [conclude, noteRun, record, touch]
    split <;> rfl

theorem arrive_current (c : Conversation) (node : Node) (cancel : Bool) :
    (c.arrive node cancel).current = some node.id := by
  cases cancel <;> rfl

theorem arrive_next (c : Conversation) (node : Node) (cancel : Bool) :
    (c.arrive node cancel).next = c.next := by
  cases cancel <;> rfl

theorem noteFailure_next (c : Conversation) (node : Node) (before : Option Json) (f : Failure)
    (now : Instant) : (c.noteFailure node before f now).next = c.next := by
  cases before <;> rfl

theorem noteFailure_current (c : Conversation) (node : Node) (before : Option Json) (f : Failure)
    (now : Instant) : (c.noteFailure node before f now).current = c.current := by
  cases before <;> rfl

/-- What a step that has run its node writes stands at that node. -/
theorem concluded_within (formed : g.Formed) (member : node ∈ g.nodes) (c : Conversation)
    (cancel : Bool) (run : Visit) (before : Option Json) (noted now : Instant) :
    ((c.arrive node cancel).conclude node run before noted now).Within g where
  next := by
    intro id same
    rw [conclude_next] at same
    exact Node.next_has formed member same
  current := by
    intro id same
    rw [conclude_current, arrive_current] at same
    cases same
    exact ⟨node, member, rfl⟩

theorem leavePause_next (c : Conversation) : c.leavePause.next = c.next := by
  unfold leavePause
  split <;> rfl

/-- Whatever the run of a node gives stands at that node. -/
theorem Within.arrives (within : c.Within g) (formed : g.Formed) (member : node ∈ g.nodes)
    {result : Conversation × Except Failure Visit}
    (visits : Engine.Visits node c.leavePause result) : Arrives (Within g) node result := by
  obtain ⟨c', result⟩ := result
  cases result with
  | ok run => exact fun cancel before noted now =>
      concluded_within formed member c' cancel run before noted now
  | error f =>
    have engaged : Engaged c.leavePause c' [] := visits
    have next : c'.next = c.next :=
      (congrArg Conversation.next engaged.frame :).trans (leavePause_next c)
    refine fun cancel before noted => ⟨fun id same => ?_, fun id same => ?_⟩
    · rw [noteFailure_next, arrive_next, next] at same
      exact within.next id same
    · rw [noteFailure_current, arrive_current] at same
      cases same
      exact ⟨node, member, rfl⟩

end Conversation

end DialogueEngine
