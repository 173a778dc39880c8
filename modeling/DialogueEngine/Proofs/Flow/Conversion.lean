import DialogueEngine.Flow.Conversion

/-!
What conversion makes of the edges of a flow. The ways out of a node are the routing edges that
leave it, in authored order.
-/

namespace DialogueEngine

/-- Of entries with keys of their own the one with a key is found. -/
theorem find_of_distinct {α β : Type} [DecidableEq β] {key : α → β} {entries : List α}
    (distinct : (entries.map key).Nodup) {a : α} (member : a ∈ entries) :
    entries.find? (fun b => key b = key a) = some a := by
  induction entries with
  | nil => cases member
  | cons first rest ih =>
    obtain ⟨new, nodup⟩ := List.nodup_cons.1 distinct
    rcases List.mem_cons.1 member with rfl | later
    · simp
    · have other : key first ≠ key a := by
        intro same
        exact new (same ▸ List.mem_map_of_mem later)
      rw [List.find?_cons_of_neg (by simpa using other)]
      exact ih nodup later

namespace AuthoredFlow

/-- The routing edges that leave a node. -/
def waysOut (f : AuthoredFlow) (id : String) : List AuthoredEdge :=
  f.edges.filter fun e => e.kind = .routing ∧ e.source = id

theorem successorsOf_eq (f : AuthoredFlow) (id : String) :
    successorsOf f.edges id = (f.waysOut id).map fun e => ⟨e.label, e.target⟩ := by
  unfold successorsOf waysOut
  induction f.edges with
  | nil => rfl
  | cons e rest ih =>
    by_cases leaves : e.kind = .routing ∧ e.source = id
    · simp [leaves, ih]
    · simp [leaves, ih]

theorem nodes_of_graphOf {f : AuthoredFlow} {nodes : List Node} {g : Graph}
    (made : f.graphOf nodes = .ok g) : g.nodes = nodes := by
  unfold graphOf at made
  split at made
  · cases made
  · cases made
    rfl
  · cases made

/-- A node of a converted flow has the ways out that were authored for it. -/
theorem successors_of_toGraph {f : AuthoredFlow} {g : Graph} (converted : f.toGraph = .ok g)
    {node : Node} (member : node ∈ g.nodes) :
    node.successors = (f.waysOut node.id).map fun e => ⟨e.label, e.target⟩ := by
  unfold toGraph at converted
  cases typed : typeNodes [] f.nodes with
  | error cause =>
    rw [typed] at converted
    cases converted
  | ok nodes =>
    rw [typed] at converted
    cases checked : checkEdges (nodes.map (·.id)) f.edges with
    | error cause =>
      simp only [bind, Except.bind, checked] at converted
      cases converted
    | ok _ =>
      simp only [bind, Except.bind, checked] at converted
      rw [nodes_of_graphOf converted] at member
      obtain ⟨n, -, rfl⟩ := List.mem_map.1 member
      exact f.successorsOf_eq n.id

end AuthoredFlow

end DialogueEngine
