import DialogueEngine.Proofs.Flow.Conversion
import Mathlib.Data.List.Forall2

/-!
Conversion described exactly. Which flows convert is said of the authored flow alone, and so is
what each of its nodes becomes; conversion does what is described and nothing else. A binding means
the same whichever way round it is drawn.
-/

namespace DialogueEngine

/-! ## What is authored -/

namespace AuthoredNode

/-- The properties of a node have a type. -/
def Types (n : AuthoredNode) (spec : NodeSpec) : Prop :=
  NodeSpec.parse n.id n.kind n.data = .ok spec

/-- What a process gets that is bound to a node: a reference, if the node provides tools and names
a provider. -/
def offer? (n : AuthoredNode) : Option ProviderRef :=
  match NodeSpec.parse n.id n.kind n.data with
  | .ok (.toolProvider ⟨some provider, enabledTools, env⟩) =>
    if provider = "" then none else some ⟨n.id, provider, enabledTools, env⟩
  | _ => none

end AuthoredNode

namespace AuthoredEdge

/-- A binding between two nodes, whichever way round it is drawn. -/
def Binds (e : AuthoredEdge) (a b : String) : Prop :=
  e.kind = .toolBinding ∧ (e.source = a ∧ e.target = b ∨ e.source = b ∧ e.target = a)

instance (e : AuthoredEdge) (a b : String) : Decidable (e.Binds a b) :=
  inferInstanceAs (Decidable (_ ∧ _))

/-- The same edge drawn the other way round. -/
def turned (e : AuthoredEdge) : AuthoredEdge := { e with source := e.target, target := e.source }

/-- An edge in the place of another: itself, or a binding turned round. -/
def Stands (e other : AuthoredEdge) : Prop := other = e ∨ e.kind = .toolBinding ∧ other = e.turned

end AuthoredEdge

namespace AuthoredFlow

/-- The flows that can be converted. -/
structure Convertible (f : AuthoredFlow) : Prop where
  typed : ∀ n ∈ f.nodes, ∃ spec, n.Types spec
  distinct : (f.nodes.map (·.id)).Nodup
  joined : ∀ e ∈ f.edges, e.kind = .routing →
    e.source ∈ f.nodes.map (·.id) ∧ e.target ∈ f.nodes.map (·.id)
  oneStart : (f.nodes.filter fun n => NodeKind.ofText? n.kind = some .start).length = 1

/-- What bindings offer to the node with an id, in the order of the edges. -/
def offersTo (f : AuthoredFlow) (id : String) : List ProviderRef :=
  f.edges.flatMap fun e => (f.nodes.filter fun n => e.Binds id n.id).filterMap (·.offer?)

/-- The references whose ids have not been met, of each id the first. -/
def unmet (met : List String) : List ProviderRef → List ProviderRef
  | [] => []
  | r :: rest => if r.id ∈ met then unmet met rest else r :: unmet (r.id :: met) rest

/-- The properties of a node in the graph: a process has, after its own references, those that
bindings offer it. -/
def bound (f : AuthoredFlow) (id : String) : NodeSpec → NodeSpec
  | .process spec => .process { spec with
      providerRefs := spec.providerRefs ++ unmet (spec.providerRefs.map (·.id)) (f.offersTo id) }
  | spec => spec

/-- A node of the graph in the place of an authored one. -/
structure Becomes (f : AuthoredFlow) (n : AuthoredNode) (node : Node) : Prop where
  id : node.id = n.id
  label : node.label = n.label
  spec : ∃ spec, n.Types spec ∧ node.spec = f.bound n.id spec
  successors : node.successors = (f.waysOut n.id).map fun e => ⟨e.action.getD e.id, e.target⟩

/-- A graph is what a flow describes. -/
structure Describes (f : AuthoredFlow) (g : Graph) : Prop where
  flow : g.flow = f.id
  name : g.name = f.name
  nodes : List.Forall₂ f.Becomes f.nodes g.nodes
  found : ∀ id node, g.node? id = some node ↔ node ∈ g.nodes ∧ node.id = id
  start : ∀ node, node ∈ g.nodes ∧ node.spec.kind = .start ↔ node = g.start

/-! ## Typing nodes and checking edges -/

/-- A node as it is before it has ways out. -/
def Typed (n : AuthoredNode) (node : Node) : Prop :=
  ∃ spec, n.Types spec ∧ node = ⟨n.id, n.label, spec, []⟩

theorem ids_of_typed {nodes : List AuthoredNode} {typed : List Node}
    (types : List.Forall₂ Typed nodes typed) : typed.map (·.id) = nodes.map (·.id) := by
  induction types with
  | nil => rfl
  | cons first _ ih =>
    obtain ⟨spec, -, rfl⟩ := first
    rw [List.map_cons, List.map_cons, ih]

theorem typeNodes_cons_eq_ok {n : AuthoredNode} {rest : List AuthoredNode} {met : List String}
    {typed : List Node} :
    typeNodes met (n :: rest) = .ok typed ↔ ∃ node others, Typed n node ∧ n.id ∉ met ∧
      typeNodes (n.id :: met) rest = .ok others ∧ typed = node :: others := by
  rw [typeNodes]
  cases parsed : NodeSpec.parse n.id n.kind n.data with
  | error failure =>
    have untyped : ∀ node, ¬ Typed n node := by
      rintro _ ⟨spec, types, -⟩
      cases parsed.symm.trans types
    cases failure <;> exact ⟨nofun, fun ⟨node, _, types, _⟩ => absurd types (untyped node)⟩
  | ok spec =>
    dsimp only
    by_cases again : n.id ∈ met
    · rw [if_pos (List.contains_iff_mem.2 again)]
      exact ⟨nofun, fun ⟨_, _, _, unmet, _⟩ => absurd again unmet⟩
    rw [if_neg (mt List.contains_iff_mem.1 again)]
    constructor
    · cases later : typeNodes (n.id :: met) rest with
      | error failure => nofun
      | ok others =>
        rintro ⟨⟩
        exact ⟨_, others, ⟨spec, parsed, rfl⟩, again, rfl, rfl⟩
    · rintro ⟨_, others, ⟨other, types, rfl⟩, -, later, rfl⟩
      obtain rfl : spec = other := Except.ok.inj (parsed.symm.trans types)
      rw [later]
      rfl

theorem typeNodes_eq_ok {nodes : List AuthoredNode} {met : List String} {typed : List Node} :
    typeNodes met nodes = .ok typed ↔
      List.Forall₂ Typed nodes typed ∧ (nodes.map (·.id)).Nodup ∧ ∀ n ∈ nodes, n.id ∉ met := by
  induction nodes generalizing met typed with
  | nil =>
    rw [List.forall₂_nil_left_iff]
    constructor
    · rintro ⟨⟩
      exact ⟨rfl, List.nodup_nil, nofun⟩
    · rintro ⟨rfl, -, -⟩
      rfl
  | cons n rest ih =>
    have apart : (∀ other ∈ rest, other.id ∉ n.id :: met) ↔
        n.id ∉ rest.map (·.id) ∧ ∀ other ∈ rest, other.id ∉ met := by
      simp only [List.mem_cons, List.mem_map, not_or, not_exists, not_and]
      exact forall₂_and
    rw [typeNodes_cons_eq_ok, List.map_cons, List.nodup_cons, List.forall_mem_cons,
      List.forall₂_cons_left_iff]
    simp only [ih, apart]
    constructor
    · rintro ⟨node, others, types, unmet, ⟨types', distinct, fresh, unmet'⟩, rfl⟩
      exact ⟨⟨node, others, types, types', rfl⟩, ⟨fresh, distinct⟩, unmet, unmet'⟩
    · rintro ⟨⟨node, others, types, types', rfl⟩, ⟨fresh, distinct⟩, unmet, unmet'⟩
      exact ⟨node, others, types, unmet, ⟨types', distinct, fresh, unmet'⟩, rfl⟩

theorem checkEdges_eq_ok {ids : List String} {edges : List AuthoredEdge} :
    checkEdges ids edges = .ok () ↔
      ∀ e ∈ edges, e.kind = .routing → e.source ∈ ids ∧ e.target ∈ ids := by
  induction edges with
  | nil => simp [checkEdges]
  | cons e rest ih =>
    rw [List.forall_mem_cons, ← ih]
    cases kind : e.kind with
    | toolBinding => simp [checkEdges, kind]
    | routing =>
      by_cases source : e.source ∈ ids
      · by_cases target : e.target ∈ ids
        · simp [checkEdges, kind, source, target]
        · simp [checkEdges, kind, source, target]
      · simp [checkEdges, kind, source]

theorem graphOf_eq_ok {f : AuthoredFlow} {nodes : List Node} {g : Graph} :
    f.graphOf nodes = .ok g ↔
      g.flow = f.id ∧ g.name = f.name ∧ g.nodes = nodes ∧ nodes.filter isStart = [g.start] := by
  unfold graphOf
  split
  · next none => simp [none]
  · next start one =>
    constructor
    · rintro ⟨⟩
      exact ⟨rfl, rfl, rfl, one⟩
    · obtain ⟨flow, name, made, first, member⟩ := g
      rintro ⟨rfl, rfl, rfl, same⟩
      obtain rfl : start = first := List.singleton_inj.1 (one.symm.trans same)
      rfl
  · next several =>
    constructor
    · nofun
    · rintro ⟨-, -, -, one⟩
      exact absurd one (several _)

theorem toGraph_eq_ok {f : AuthoredFlow} {g : Graph} :
    f.toGraph = .ok g ↔ ∃ typed, typeNodes [] f.nodes = .ok typed ∧
      checkEdges (typed.map (·.id)) f.edges = .ok () ∧
      f.graphOf (typed.map (connect f.edges (f.edges.filterMap (binding? typed)))) = .ok g := by
  unfold toGraph
  cases typeNodes [] f.nodes with
  | error failure => simp [bind, Except.bind]
  | ok typed =>
    cases checked : checkEdges (typed.map (·.id)) f.edges with
    | error failure => simp [bind, Except.bind, checked]
    | ok _ => simp [bind, Except.bind, checked]

/-! ## References added by bindings -/

theorem unmet_congr {met met' : List String} (same : ∀ id, id ∈ met ↔ id ∈ met')
    (added : List ProviderRef) : unmet met added = unmet met' added := by
  induction added generalizing met met' with
  | nil => rfl
  | cons r rest ih =>
    have grown : ∀ id, id ∈ r.id :: met ↔ id ∈ r.id :: met' := fun id => by
      rw [List.mem_cons, List.mem_cons, same]
    rw [unmet, unmet, ih same, ih grown, if_congr (same r.id) rfl rfl]

theorem foldl_addRef (added refs : List ProviderRef) :
    added.foldl addRef refs = refs ++ unmet (refs.map (·.id)) added := by
  induction added generalizing refs with
  | nil => exact (List.append_nil refs).symm
  | cons r rest ih =>
    have present : refs.any (fun other => other.id = r.id) = true ↔ r.id ∈ refs.map (·.id) := by
      simp
    rw [List.foldl_cons, ih, addRef, unmet]
    by_cases met : r.id ∈ refs.map (·.id)
    · rw [if_pos (present.2 met), if_pos met]
    · have grown : ∀ id, id ∈ (refs ++ [r]).map (·.id) ↔ id ∈ r.id :: refs.map (·.id) :=
        fun id => by simp [or_comm]
      rw [if_neg (mt present.1 met), if_neg met, unmet_congr grown, List.append_assoc]
      rfl

/-- Where ids are distinct, those with one id are the one that is found. -/
theorem filter_id {nodes : List AuthoredNode} (distinct : (nodes.map (·.id)).Nodup) (id : String) :
    (nodes.filter fun n => n.id = id) = (nodes.find? fun n => n.id = id).toList := by
  induction nodes with
  | nil => rfl
  | cons n rest ih =>
    rw [List.map_cons, List.nodup_cons] at distinct
    by_cases same : n.id = id
    · have none : rest.filter (fun n => n.id = id) = [] := by
        rw [List.filter_eq_nil_iff]
        intro other member equal
        exact distinct.1 ((same.trans (of_decide_eq_true equal).symm) ▸ List.mem_map_of_mem member)
      rw [List.filter_cons_of_pos (by simpa using same),
        List.find?_cons_of_pos (by simpa using same), none]
      rfl
    · rw [List.filter_cons_of_neg (by simpa using same),
        List.find?_cons_of_neg (by simpa using same), ih distinct.2]

theorem find_typed {nodes : List AuthoredNode} {typed : List Node}
    (types : List.Forall₂ Typed nodes typed) (id : String) :
    Option.Rel Typed (nodes.find? fun n => n.id = id) (typed.find? fun n => n.id = id) := by
  induction types with
  | nil => exact .none
  | @cons n node rest others first _ ih =>
    have ids : node.id = n.id := by
      obtain ⟨spec, -, rfl⟩ := first
      rfl
    by_cases same : n.id = id
    · rw [List.find?_cons_of_pos (by simpa using same),
        List.find?_cons_of_pos (by simpa [ids] using same)]
      exact .some first
    · rw [List.find?_cons_of_neg (by simpa using same),
        List.find?_cons_of_neg (by simpa [ids] using same)]
      exact ih

theorem offer_of_typed {n : AuthoredNode} {node : Node} (types : Typed n node) :
    refOf? node = n.offer? := by
  obtain ⟨spec, types, rfl⟩ := types
  unfold refOf? AuthoredNode.offer?
  rw [types]
  cases spec with
  | toolProvider spec =>
    obtain ⟨provider, enabledTools, env⟩ := spec
    cases provider with
    | none => rfl
    | some provider =>
      by_cases empty : provider = ""
      · simp [given?, empty]
      · simp [given?, empty]
  | start => rfl
  | process => rfl
  | finish => rfl

theorem offers_of_typed {found : Option AuthoredNode} {found' : Option Node}
    (types : Option.Rel Typed found found') : found'.bind refOf? = found.bind (·.offer?) := by
  cases types with
  | none => rfl
  | some types => exact offer_of_typed types

/-- A binding that is drawn from a process brings it what the other end offers. -/
theorem binding_from_process {typed : List Node} {e : AuthoredEdge} {a : Node}
    {spec : ProcessSpec} (kind : e.kind = .toolBinding)
    (found : typed.find? (fun n => n.id = e.source) = some a) (process : a.spec = .process spec) :
    binding? typed e =
      ((typed.find? fun n => n.id = e.target).bind refOf?).map fun r => (a.id, r) := by
  unfold binding?
  rw [kind, found]
  cases typed.find? fun n => n.id = e.target with
  | none => rfl
  | some b =>
    dsimp only [Option.bind_some]
    rw [process]
    unfold refOf?
    cases b.spec <;> rfl

theorem binding_turned (typed : List Node) (e : AuthoredEdge) (kind : e.kind = .toolBinding) :
    binding? typed e.turned = binding? typed e := by
  unfold binding? AuthoredEdge.turned
  dsimp only
  rw [kind]
  cases typed.find? fun n => n.id = e.source with
  | none => cases typed.find? fun n => n.id = e.target <;> rfl
  | some a =>
    cases typed.find? fun n => n.id = e.target with
    | none => rfl
    | some b =>
      dsimp only
      cases a.spec <;> cases b.spec <;> rfl

/-- An id that finds something finds what has it. -/
theorem id_of_find {typed : List Node} {id : String} {node : Node}
    (found : typed.find? (fun n => n.id = id) = some node) : node.id = id := by
  simpa using List.find?_some found

theorem binding_end {typed : List Node} {e : AuthoredEdge} {id : String} {r : ProviderRef}
    (bound : binding? typed e = some (id, r)) :
    e.kind = .toolBinding ∧ (e.source = id ∨ e.target = id) := by
  unfold binding? at bound
  split at bound
  · cases bound
  · next kind =>
    split at bound
    · next a b source target =>
      split at bound
      · obtain ⟨_, -, same⟩ := Option.map_eq_some_iff.1 bound
        cases same
        exact ⟨kind, .inl (id_of_find source).symm⟩
      · obtain ⟨_, -, same⟩ := Option.map_eq_some_iff.1 bound
        cases same
        exact ⟨kind, .inr (id_of_find target).symm⟩
      · cases bound
    · cases bound

section Brought

variable {nodes : List AuthoredNode} {typed : List Node} (types : List.Forall₂ Typed nodes typed)
  (distinct : (nodes.map (·.id)).Nodup) {n : AuthoredNode} {spec : ProcessSpec}
  (member : n ∈ nodes) (process : n.Types (.process spec))

include types distinct member process

theorem find_process : typed.find? (fun node => node.id = n.id) =
    some ⟨n.id, n.label, .process spec, []⟩ := by
  have typing := find_typed types n.id
  rw [find_of_distinct distinct member] at typing
  generalize typed.find? (fun node => node.id = n.id) = found at typing ⊢
  obtain ⟨⟨other, types, rfl⟩⟩ := typing
  rw [Except.ok.inj (types.symm.trans process)]

/-- What a binding that is drawn from a process brings it. -/
theorem brought_from {e : AuthoredEdge} (kind : e.kind = .toolBinding) (source : e.source = n.id) :
    (((binding? typed e).filter fun b => b.1 = n.id).map (·.2)).toList =
      (nodes.filter fun other => e.Binds n.id other.id).filterMap (·.offer?) := by
  have across : ∀ other : AuthoredNode, e.Binds n.id other.id ↔ other.id = e.target := by
    intro other
    constructor
    · rintro ⟨-, ⟨-, target⟩ | ⟨same, target⟩⟩
      · exact target.symm
      · rw [target, ← source, same]
    · exact fun target => ⟨kind, .inl ⟨source, target.symm⟩⟩
  have drawn := binding_from_process kind (source ▸ find_process types distinct member process) rfl
  rw [drawn, offers_of_typed (find_typed types e.target)]
  simp only [across]
  rw [filter_id distinct]
  cases nodes.find? fun other => other.id = e.target with
  | none => rfl
  | some other => cases brings : other.offer? <;> simp [brings, source]

/-- What an edge brings to a process. -/
theorem brought (e : AuthoredEdge) :
    (((binding? typed e).filter fun b => b.1 = n.id).map (·.2)).toList =
      (nodes.filter fun other => e.Binds n.id other.id).filterMap (·.offer?) := by
  by_cases touches : e.kind = .toolBinding ∧ (e.source = n.id ∨ e.target = n.id)
  · obtain ⟨kind, source | target⟩ := touches
    · exact brought_from types distinct member process kind source
    · have turns : ∀ other : AuthoredNode, e.turned.Binds n.id other.id ↔ e.Binds n.id other.id :=
        fun other => and_congr_right fun _ => by
          rw [AuthoredEdge.turned, and_comm, or_comm, and_comm (b := e.source = _)]
      have turned := brought_from types distinct member process (e := e.turned) kind target
      rw [binding_turned typed e kind] at turned
      simpa only [turns] using turned
  · have none : ∀ other : AuthoredNode, ¬ e.Binds n.id other.id := by
      rintro other ⟨kind, ⟨source, -⟩ | ⟨-, target⟩⟩
      · exact touches ⟨kind, .inl source⟩
      · exact touches ⟨kind, .inr target⟩
    simp only [none, decide_false, List.filter_false, List.filterMap_nil]
    cases bound : binding? typed e with
    | none => rfl
    | some b =>
      have other : ¬ b.1 = n.id := by
        intro same
        have ends := binding_end bound
        rw [same] at ends
        exact touches ends
      simp [Option.filter, other]

/-- What all edges bring to a process. -/
theorem added_of_typed {f : AuthoredFlow} (same : f.nodes = nodes) :
    ((f.edges.filterMap (binding? typed)).filter fun b => b.1 = n.id).map (·.2) =
      f.offersTo n.id := by
  unfold offersTo
  rw [same]
  induction f.edges with
  | nil => rfl
  | cons e rest ih =>
    rw [List.flatMap_cons, ← ih, ← brought types distinct member process e]
    cases bound : binding? typed e with
    | none => simp [bound]
    | some b => by_cases mine : b.1 = n.id <;> simp [bound, mine, Option.filter]

end Brought

/-! ## The graph -/

theorem becomes_of_typed {f : AuthoredFlow} {typed : List Node}
    (types : List.Forall₂ Typed f.nodes typed) (distinct : (f.nodes.map (·.id)).Nodup) :
    List.Forall₂ f.Becomes f.nodes
      (typed.map (connect f.edges (f.edges.filterMap (binding? typed)))) := by
  rw [List.forall₂_map_right_iff]
  have listed := (List.forall₂_and_left (p := (· ∈ f.nodes)) _ _).2 ⟨fun _ member => member, types⟩
  apply listed.imp
  rintro n _ ⟨member, spec, parsed, rfl⟩
  refine ⟨rfl, rfl, ⟨spec, parsed, ?_⟩, successorsOf_eq f n.id⟩
  cases spec with
  | process spec =>
    rw [connect, bound]
    dsimp only
    rw [added_of_typed types distinct member parsed rfl, foldl_addRef]
  | start => rfl
  | toolProvider => rfl
  | finish => rfl

theorem ids_of_becomes {f : AuthoredFlow} {nodes : List AuthoredNode} {made : List Node}
    (become : List.Forall₂ f.Becomes nodes made) : made.map (·.id) = nodes.map (·.id) := by
  induction become with
  | nil => rfl
  | cons first _ ih => rw [List.map_cons, List.map_cons, ih, first.id]

theorem kind_of_types {n : AuthoredNode} {spec : NodeSpec} (types : n.Types spec) :
    NodeKind.ofText? n.kind = some spec.kind := by
  unfold AuthoredNode.Types NodeSpec.parse at types
  split at types
  · cases types
  · next kind named =>
    rw [named]
    cases kind with
    | finish =>
      cases types
      rfl
    | start =>
      dsimp only at types
      split at types
      · cases types
        rfl
      · cases types
    | process =>
      dsimp only at types
      split at types
      · cases types
        rfl
      · cases types
    | toolProvider =>
      dsimp only at types
      split at types
      · cases types
        rfl
      · cases types

theorem kind_bound (f : AuthoredFlow) (id : String) (spec : NodeSpec) :
    (f.bound id spec).kind = spec.kind := by
  cases spec <;> rfl

/-- As many nodes start as are authored to. -/
theorem starts_of_becomes {f : AuthoredFlow} {nodes : List AuthoredNode} {made : List Node}
    (become : List.Forall₂ f.Becomes nodes made) :
    (made.filter isStart).length =
      (nodes.filter fun n => NodeKind.ofText? n.kind = some .start).length := by
  induction become with
  | nil => rfl
  | @cons n node rest others first _ ih =>
    obtain ⟨spec, types, same⟩ := first.spec
    have starts : isStart node = decide (NodeKind.ofText? n.kind = some .start) := by
      rw [isStart, same, kind_bound, kind_of_types types]
      simp
    rw [List.filter_cons, List.filter_cons, starts]
    split
    · rw [List.length_cons, List.length_cons, ih]
    · exact ih

theorem types_of_typed {nodes : List AuthoredNode} {typed : List Node}
    (types : List.Forall₂ Typed nodes typed) : ∀ n ∈ nodes, ∃ spec, n.Types spec := by
  induction types with
  | nil => nofun
  | cons first _ ih => exact List.forall_mem_cons.2 ⟨first.imp fun _ => And.left, ih⟩

theorem exists_typed {nodes : List AuthoredNode} (typed : ∀ n ∈ nodes, ∃ spec, n.Types spec) :
    ∃ made, List.Forall₂ Typed nodes made := by
  induction nodes with
  | nil => exact ⟨[], .nil⟩
  | cons n rest ih =>
    obtain ⟨⟨spec, types⟩, later⟩ := List.forall_mem_cons.1 typed
    obtain ⟨others, types'⟩ := ih later
    exact ⟨_, .cons ⟨spec, types, rfl⟩ types'⟩

theorem Convertible.exists_graph {f : AuthoredFlow} (convertible : f.Convertible) :
    ∃ g, f.toGraph = .ok g := by
  obtain ⟨typed, types⟩ := exists_typed convertible.typed
  have become := becomes_of_typed types convertible.distinct
  have one := (starts_of_becomes become).trans convertible.oneStart
  obtain ⟨start, only⟩ := List.length_eq_one_iff.1 one
  have member := List.mem_of_mem_filter (only ▸ List.mem_singleton_self start)
  refine ⟨⟨f.id, f.name, _, start, member⟩, toGraph_eq_ok.2 ⟨typed, ?_, ?_, ?_⟩⟩
  · exact typeNodes_eq_ok.2 ⟨types, convertible.distinct, fun _ _ => List.not_mem_nil⟩
  · rw [ids_of_typed types]
    exact checkEdges_eq_ok.2 convertible.joined
  · exact graphOf_eq_ok.2 ⟨rfl, rfl, rfl, only⟩

theorem convertible_of_toGraph {f : AuthoredFlow} {g : Graph} (converted : f.toGraph = .ok g) :
    f.Convertible ∧ f.Describes g := by
  obtain ⟨typed, typing, checked, made⟩ := toGraph_eq_ok.1 converted
  obtain ⟨types, distinct, -⟩ := typeNodes_eq_ok.1 typing
  obtain ⟨flow, name, nodes, only⟩ := graphOf_eq_ok.1 made
  rw [ids_of_typed types] at checked
  have become : List.Forall₂ f.Becomes f.nodes g.nodes :=
    nodes ▸ becomes_of_typed types distinct
  rw [← nodes] at only
  constructor
  · refine ⟨fun n member => ?_, distinct, checkEdges_eq_ok.1 checked, ?_⟩
    · exact types_of_typed types n member
    · rw [← starts_of_becomes become, only]
      rfl
  · refine ⟨flow, name, become, fun id node => ?_, fun node => ?_⟩
    · have distinct' : (g.nodes.map (·.id)).Nodup := ids_of_becomes become ▸ distinct
      constructor
      · exact fun found => ⟨List.mem_of_find?_eq_some found, id_of_find found⟩
      · rintro ⟨member, rfl⟩
        exact find_of_distinct distinct' member
    · have starts : node ∈ g.nodes.filter isStart ↔ node = g.start := by
        rw [only, List.mem_singleton]
      rw [← starts, List.mem_filter, isStart, decide_eq_true_iff]

/-- A flow describes one graph. -/
theorem Describes.unique {f : AuthoredFlow} {g g' : Graph} (describes : f.Describes g)
    (describes' : f.Describes g') : g = g' := by
  have single : Relator.RightUnique f.Becomes := by
    rintro n ⟨id, label, spec, successors⟩ ⟨id', label', spec', successors'⟩
      ⟨rfl, rfl, ⟨typed, types, rfl⟩, rfl⟩ ⟨rfl, rfl, ⟨typed', types', rfl⟩, rfl⟩
    rw [Except.ok.inj (types.symm.trans types')]
  have nodes := List.right_unique_forall₂' single describes.nodes describes'.nodes
  have start : g.start = g'.start := by
    have starts := (describes.start g.start).2 rfl
    exact (describes'.start g.start).1 ⟨nodes ▸ starts.1, starts.2⟩
  obtain ⟨flow, name, made, first, member⟩ := g
  obtain ⟨flow', name', made', first', member'⟩ := g'
  obtain rfl : flow = flow' := describes.flow.trans describes'.flow.symm
  obtain rfl : name = name' := describes.name.trans describes'.name.symm
  obtain rfl : made = made' := nodes
  obtain rfl : first = first' := start
  rfl

/-! ## Bindings either way round -/

section Turned

variable {edges edges' : List AuthoredEdge}

theorem checkEdges_of_stands (stand : List.Forall₂ AuthoredEdge.Stands edges edges')
    (ids : List String) : checkEdges ids edges' = checkEdges ids edges := by
  induction stand with
  | nil => rfl
  | cons first _ ih =>
    obtain rfl | ⟨kind, rfl⟩ := first
    · rw [checkEdges, checkEdges, ih]
    · rw [checkEdges, checkEdges, ih]
      simp [AuthoredEdge.turned, kind]

theorem successorsOf_of_stands (stand : List.Forall₂ AuthoredEdge.Stands edges edges') :
    successorsOf edges' = successorsOf edges := by
  funext id
  unfold successorsOf
  induction stand with
  | nil => rfl
  | cons first _ ih =>
    obtain rfl | ⟨kind, rfl⟩ := first
    · rw [List.filterMap_cons, List.filterMap_cons, ih]
    · simp [AuthoredEdge.turned, kind, ih]

theorem bindings_of_stands (stand : List.Forall₂ AuthoredEdge.Stands edges edges')
    (typed : List Node) : edges'.filterMap (binding? typed) = edges.filterMap (binding? typed) := by
  induction stand with
  | nil => rfl
  | cons first _ ih =>
    obtain rfl | ⟨kind, rfl⟩ := first
    · rw [List.filterMap_cons, List.filterMap_cons, ih]
    · rw [List.filterMap_cons, List.filterMap_cons, ih, binding_turned typed _ kind]

theorem toGraph_of_stands {f : AuthoredFlow}
    (stand : List.Forall₂ AuthoredEdge.Stands f.edges edges) :
    toGraph { f with edges := edges } = f.toGraph := by
  have connects : connect edges = connect f.edges := by
    unfold connect
    rw [successorsOf_of_stands stand]
  unfold toGraph
  simp only [checkEdges_of_stands stand, bindings_of_stands stand, connects]
  rfl

end Turned

/-- Conversion succeeds for the flows that can be converted, gives the one graph that is described,
and does not ask which way round a binding is drawn. -/
theorem toGraph_exact (f : AuthoredFlow) :
    ((∃ g, f.toGraph = .ok g) ↔ f.Convertible) ∧
    (∀ g, f.toGraph = .ok g ↔ f.Convertible ∧ f.Describes g) ∧
    ∀ edges, List.Forall₂ AuthoredEdge.Stands f.edges edges →
      toGraph { f with edges := edges } = f.toGraph := by
  refine ⟨⟨?_, Convertible.exists_graph⟩, fun g => ⟨convertible_of_toGraph, ?_⟩,
    fun edges => toGraph_of_stands⟩
  · rintro ⟨g, converted⟩
    exact (convertible_of_toGraph converted).1
  · rintro ⟨convertible, describes⟩
    obtain ⟨g', converted⟩ := convertible.exists_graph
    rw [converted, describes.unique (convertible_of_toGraph converted).2]

/-- A flow with a provider that is bound to a process both ways round and to another. -/
def boundFlow : AuthoredFlow where
  id := "bound"
  name := "Bound"
  nodes := [⟨"s", "S", "start", .null⟩,
    ⟨"p", "P", "process", .object [("boundModel", .string "m")]⟩,
    ⟨"t", "T", "toolProvider", .object
      [("boundProvider", .string "search"), ("enabledTools", .array [.string "lookup"])]⟩,
    ⟨"f", "F", "finish", .null⟩,
    ⟨"r", "R", "process", .object [("boundModel", .string "m")]⟩]
  edges := [⟨"e1", "s", "p", .routing, none⟩, ⟨"e2", "p", "f", .routing, some "done"⟩,
    ⟨"e3", "p", "r", .routing, some "research"⟩, ⟨"b1", "p", "t", .toolBinding, none⟩,
    ⟨"b2", "t", "p", .toolBinding, none⟩, ⟨"b3", "t", "r", .toolBinding, none⟩]

/-- The edges of `boundFlow` with one binding turned round. -/
def turnedEdges : List AuthoredEdge :=
  boundFlow.edges.map fun e => if e.id = "b3" then e.turned else e

theorem boundFlow_exact : ∃ g, boundFlow.toGraph = .ok g ∧ boundFlow.Convertible ∧
    boundFlow.Describes g ∧ List.Forall₂ AuthoredEdge.Stands boundFlow.edges turnedEdges ∧
    turnedEdges ≠ boundFlow.edges ∧ toGraph { boundFlow with edges := turnedEdges } = .ok g ∧
    (boundFlow.offersTo "p").length = 2 ∧
    unmet [] (boundFlow.offersTo "p") = [⟨"t", "search", ["lookup"], ∅⟩] := by
  have converts : boundFlow.toGraph.isOk = true := by decide +kernel
  have stand : List.Forall₂ AuthoredEdge.Stands boundFlow.edges turnedEdges :=
    .cons (.inl rfl) (.cons (.inl rfl) (.cons (.inl rfl) (.cons (.inl rfl) (.cons (.inl rfl)
      (.cons (.inr ⟨rfl, rfl⟩) .nil)))))
  obtain ⟨-, described, turned⟩ := toGraph_exact boundFlow
  cases converted : boundFlow.toGraph with
  | error cause =>
    rw [converted] at converts
    cases converts
  | ok g =>
    obtain ⟨convertible, describes⟩ := (described g).1 converted
    exact ⟨g, rfl, convertible, describes, stand, by decide, (turned _ stand).trans converted,
      by decide +kernel, by decide +kernel⟩

end AuthoredFlow

end DialogueEngine
