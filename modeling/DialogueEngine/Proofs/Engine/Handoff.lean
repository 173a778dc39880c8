import DialogueEngine.Proofs.Conversation.Placement
import DialogueEngine.Proofs.Engine.Charter
import DialogueEngine.Proofs.Engine.Rounds
import DialogueEngine.Proofs.Engine.Routes

/-!
Routes that are left to be taken. A completion can ask for tools that have to be approved and choose
a route at the same time; the turn then pauses, and the route is left to be taken by the process
that offered it, where the conversation stands until then.
-/

namespace DialogueEngine

/-! ## Offered routes -/

/-- A process has its calls approved and offers several ways out, of which one has a label. -/
structure Node.Offers (settings : Settings) (node : Node) (label : String) : Prop where
  process : ∃ spec, node.spec = .process spec ∧ (given? spec.model).isSome ∧
    (spec.requireApproval || settings.approval.requireApproval) = true
  several : 1 < node.successors.length
  way : ∃ way ∈ node.successors, way.label = label

section Plans

variable {settings : Settings} {node : Node} {spec : ProcessSpec} {c : Conversation} {p : TurnPlan}
  {label : String}

/-- The routes that the plan of a turn offers are ways out of its node, which has several. -/
theorem TurnPlan.way_of_offered (planned : TurnPlan.of settings node spec c = .ok p)
    (offered : p.OffersLabel label) :
    1 < node.successors.length ∧ ∃ way ∈ node.successors, way.label = label := by
  obtain ⟨route, member, rfl⟩ := offered
  unfold TurnPlan.of at planned
  split at planned
  · cases planned
  · cases planned
    dsimp only at member
    split at member
    · next several =>
      obtain ⟨way, inside, rfl⟩ := List.mem_map.1 member
      exact ⟨several, way, inside, rfl⟩
    · cases member

/-- What the plan of a turn offers is offered by its node. -/
theorem Node.Offers.of_plan (kind : node.spec = .process spec)
    (planned : TurnPlan.of settings node spec c = .ok p) (required : p.requireApproval = true)
    (offered : p.OffersLabel label) : node.Offers settings label := by
  obtain ⟨several, way⟩ := TurnPlan.way_of_offered planned offered
  unfold TurnPlan.of at planned
  split at planned
  · cases planned
  · next model given =>
    cases planned
    exact ⟨⟨spec, kind, by rw [given]; rfl, required⟩, several, way⟩

/-- Whatever calls choose is offered. -/
theorem TurnPlan.offers_of_chosen {calls : List ToolCall} (chosen : p.chosen calls = some label) :
    p.OffersLabel label := by
  obtain ⟨route, named, rfl⟩ := Option.map_eq_some_iff.1 chosen
  obtain ⟨call, -, found⟩ := List.exists_of_findSome?_eq_some named
  unfold route? at found
  split at found
  · exact ⟨route, List.mem_of_find?_eq_some found, rfl⟩
  · cases found

/-- A node that offers a route plans turns that offer it. -/
theorem Node.Offers.plan (offers : node.Offers settings label) (c : Conversation) :
    ∃ spec p, node.spec = .process spec ∧ TurnPlan.of settings node spec c = .ok p ∧
      p.OffersLabel label := by
  obtain ⟨⟨spec, kind, given, -⟩, several, way, inside, named⟩ := offers
  obtain ⟨model, given⟩ := Option.isSome_iff_exists.1 given
  cases planned : TurnPlan.of settings node spec c with
  | error f =>
    unfold TurnPlan.of at planned
    rw [given] at planned
    cases planned
  | ok p =>
    refine ⟨spec, p, kind, planned, .ofSuccessor way, ?_, named⟩
    rw [Engine.handoffs_of_plan planned several]
    exact List.mem_map_of_mem inside

/-- The route leads along the first way out with its label. -/
theorem Node.Offers.successor (offers : node.Offers settings label) :
    ∃ way, node.successor? label = some way := by
  obtain ⟨way, member, named⟩ := offers.way
  exact Option.isSome_iff_exists.1 (List.find?_isSome.2 ⟨way, member, decide_eq_true named⟩)

end Plans

/-! ## Where conversations stand -/

/-- A node of a graph is found by its id. -/
theorem Graph.nodeAt_self (g : Graph) (formed : g.Formed) {node : Node} (member : node ∈ g.nodes) :
    g.nodeAt (some node.id) = node :=
  List.inj_on_of_nodup_map formed.distinct (g.nodeAt_mem _) member (nodeAt_id ⟨node, member, rfl⟩)

namespace Conversation

/-- A route that is left to be taken is offered by the process where the conversation stands, and
the conversation has not been completed. -/
def Bound (settings : Settings) (g : Graph) (c : Conversation) : Prop :=
  ∀ label, c.handoff = some label → c.status ≠ .completed ∧ ∃ node ∈ g.nodes,
    node.Offers settings label ∧ c.next = some node.id ∧ c.current = some node.id

variable {settings : Settings} {g : Graph} {c c' : Conversation}

theorem Bound.of_unrouted (unrouted : c.handoff = none) : c.Bound settings g := by
  intro label routed
  rw [unrouted] at routed
  cases routed

theorem Bound.of_same (bound : c.Bound settings g) (handoff : c'.handoff = c.handoff)
    (next : c'.next = c.next) (current : c'.current = c.current)
    (status : c.status ≠ .completed → c'.status ≠ .completed) : c'.Bound settings g := by
  intro label routed
  obtain ⟨going, stands⟩ := bound label (handoff ▸ routed)
  rw [next, current]
  exact ⟨status going, stands⟩

theorem Bound.amends (bound : c.Bound settings g) (amended : c.Amends c') :
    c'.Bound settings g := by
  cases amended with
  | cancelled now => exact bound
  | recording enabled now =>
    refine bound.of_same rfl rfl rfl fun going => ?_
    unfold withRecording touch
    dsimp only
    split
    · nofun
    · exact going
  | posted role now =>
    refine bound.of_same ?_ (reopen_next _) (reopen_current _) fun going => ?_
    · unfold reopen
      split <;> rfl
    · unfold reopen
      split
      · nofun
      · exact going
  | resolved found m later =>
    obtain ⟨others, -, rfl⟩ := takeCall_spec found
    refine bound.of_same rfl rfl rfl fun going => ?_
    unfold push
    dsimp only
    split
    · nofun
    · exact going
  | givenUp f now => exact .of_unrouted rfl
  | refused f => exact bound

/-- A conversation that has to go back to its resume point has no route left to be taken. -/
theorem Bound.unrouted (bound : c.Bound settings g) {m : Message} {now : Instant}
    (needed : (c.push m now).needsRewind = true) : c.handoff = none := by
  cases routed : c.handoff with
  | none => rfl
  | some label =>
    obtain ⟨going, node, -, -, next, -⟩ := bound label routed
    have stands : c.next.isNone = false := by rw [next]; rfl
    simp [needsRewind, push, going, stands] at needed

theorem Bound.rewound (bound : c.Bound settings g) {m : Message} (now : Instant)
    (needed : (c.push m now).needsRewind = true) :
    ((c.push m now).rewind g).reopen.Bound settings g := by
  have kept : ((c.push m now).rewind g).reopen.handoff = c.handoff := by
    unfold reopen
    split <;> rfl
  exact .of_unrouted (kept.trans (bound.unrouted needed))

theorem durable_bound (settings : Settings) (g : Graph) : Durable (Bound settings g) := by
  refine .of_bare fun c c' same bound => bound.of_same ?_ ?_ ?_ fun going => ?_
  · exact (congrArg Conversation.handoff same :)
  · exact (congrArg Conversation.next same :)
  · exact (congrArg Conversation.current same :)
  · have status : c'.status = c.status := (congrArg Conversation.status same :)
    rwa [status]

end Conversation

namespace Engine

variable {settings : Settings} {g : Graph} {node : Node} {c c' : Conversation}
  {past : List Exchange} {s : Situation}

/-! ## What visits leave to be taken -/

/-- A route that is left to be taken after the visit of a node was left before, and is none of the
node's, or it is offered by the node, which has paused. -/
def LeavesRoute (settings : Settings) (node : Node) (c : Conversation)
    (result : Conversation × Except Failure Visit) : Prop :=
  ∀ label, result.1.handoff = some label →
    (c.handoff = some label ∧ ¬ node.Offers settings label) ∨
      node.Offers settings label ∧ result.1.status = .awaitingApproval ∧
        ∃ run, result.2 = .ok run ∧ run.action = .toolCall

theorem LeavesRoute.of_kept {result : Conversation × Except Failure Visit}
    (kept : result.1.handoff = c.handoff) (other : ∀ label, ¬ node.Offers settings label) :
    LeavesRoute settings node c result :=
  fun label routed => .inl ⟨kept.symm.trans routed, other label⟩

theorem yields_runToolProvider_handoff (node : Node) (spec : ProviderSpec) (c : Conversation) :
    Activity.Yields (fun _ => True) (runToolProvider node spec c) fun result =>
      result.1.handoff = c.handoff := by
  unfold runToolProvider
  cases spec.require node.id with
  | error f => exact .pure rfl
  | ok provider =>
    refine (Activity.Yields.always (ask _)).bind fun revision _ => ?_
    refine (Activity.Yields.always (fullListing _)).bind fun found _ => ?_
    split
    · exact .pure rfl
    · exact .pure rfl
    · exact (Activity.Yields.always now).bind fun _ _ => .pure rfl

theorem visit_leavesRoute (node : Node) (c : Conversation) (same : s.settings = settings) :
    (visit node c s).Follows (fun s => s.settings = settings) (fun _ _ => True)
      (fun _ result _ => LeavesRoute settings node c result) [] := by
  have keeps {x : Engine (Conversation × Except Failure Visit)}
      (yields : Activity.Yields (fun _ => True) x fun result => result.1.handoff = c.handoff)
      (other : ∀ spec, node.spec ≠ .process spec) : (x s).Follows (fun s => s.settings = settings)
        (fun _ _ => True) (fun _ result _ => LeavesRoute settings node c result) [] :=
    ((yields s).follows fun _ _ => trivial).mono (fun _ _ asked => asked)
      fun _ _ _ kept => .of_kept kept fun label offers =>
        offers.process.elim fun spec process => other spec process.1
  cases kind : node.spec with
  | start spec =>
    have quiet : Activity.Yields (fun _ => True) (runStart node spec c) fun result =>
      result.1.handoff = c.handoff := fun _ => rfl
    unfold visit
    rw [kind]
    exact keeps quiet (by rw [kind]; nofun)
  | process spec =>
    subst same
    have runs : visit node c = runProcess node spec c := by
      unfold visit
      rw [kind]
    rw [runs]
    cases planned : TurnPlan.of s.settings node spec c with
    | error f =>
      have looks : situation s = .done s s := rfl
      unfold runProcess
      rw [Activity.bind_of_done looks, planned]
      refine LeavesRoute.of_kept rfl fun label offers => ?_
      obtain ⟨spec', p, kind', planned', -⟩ := offers.plan c
      obtain rfl : spec = spec' := NodeSpec.process.inj (kind.symm.trans kind')
      rw [planned] at planned'
      cases planned'
    | ok p =>
      have turn := runProcess_planned False planned (TurnPlan.handoffs_are_routes planned)
        nofun nofun nofun
      refine (turn.restrict fun s' same => ⟨same, nofun⟩).mono (fun _ _ _ => trivial) ?_
      rintro past ⟨c', result⟩ s' ⟨ended, capping, rfl⟩ label routed
      obtain ⟨required, offered, status, waiting, calls, paused⟩ := capping.left label routed
      obtain rfl : ended = .ok (.awaitingApproval waiting calls) := paused
      exact .inr ⟨.of_plan kind planned required offered, status, _, rfl, rfl⟩
  | toolProvider spec =>
    unfold visit
    rw [kind]
    exact keeps (yields_runToolProvider_handoff node spec c) (by rw [kind]; nofun)
  | finish =>
    have quiet : Activity.Yields (fun _ => True) (runFinish c) fun result =>
      result.1.handoff = c.handoff := fun _ => rfl
    unfold visit
    rw [kind]
    exact keeps quiet (by rw [kind]; nofun)

end Engine

namespace Conversation

variable {settings : Settings} {g : Graph} {node : Node} {c : Conversation}

/-- Leaving a pause changes nothing but the status and the failure that was noted. -/
theorem leavePause_eq (c : Conversation) : c.leavePause =
    { c with status := c.leavePause.status, lastError := c.leavePause.lastError } := by
  unfold leavePause
  split <;> rfl

theorem arrive_handoff (c : Conversation) (node : Node) (cancel : Bool) :
    (c.arrive node cancel).handoff = c.handoff := by
  cases cancel <;> rfl

theorem conclude_handoff (c : Conversation) (node : Node) (run : Visit) (before : Option Json)
    (noted now : Instant) : (c.conclude node run before noted now).handoff = c.handoff := by
  cases before with
  | none => rfl
  | some before =>
    simp only [conclude, noteRun, record, touch]
    split <;> rfl

theorem arrive_flow (c : Conversation) (node : Node) (cancel : Bool) :
    (c.arrive node cancel).flow = c.flow := by
  cases cancel <;> rfl

theorem conclude_flow (c : Conversation) (node : Node) (run : Visit) (before : Option Json)
    (noted now : Instant) : (c.conclude node run before noted now).flow = c.flow := by
  cases before with
  | none => rfl
  | some before =>
    simp only [conclude, noteRun, record, touch]
    split <;> rfl

/-- A conversation that waits for approval at the end of a step goes on waiting. -/
theorem conclude_waiting (waits : c.status = .awaitingApproval) (run : Visit)
    (before : Option Json) (noted now : Instant) :
    (c.conclude node run before noted now).status = .awaitingApproval := by
  rw [conclude_status, waits]
  exact if_neg fun ⟨_, runs⟩ => by cases runs

/-- The process that a route is left for is the one that goes on. -/
theorem Bound.nodeAt (bound : c.Bound settings g) (formed : g.Formed) {label : String}
    (routed : c.handoff = some label) : (g.nodeAt (c.next <|> c.current)).Offers settings label ∧
      c.next = some (g.nodeAt (c.next <|> c.current)).id ∧
      c.current = some (g.nodeAt (c.next <|> c.current)).id := by
  obtain ⟨-, node, member, offers, next, current⟩ := bound label routed
  have same : g.nodeAt (c.next <|> c.current) = node := by
    rw [next]
    exact g.nodeAt_self formed member
  rw [same]
  exact ⟨offers, next, current⟩

/-- Whatever the run of a node gives is bound to a route only by that node. -/
theorem Bound.arrives (bound : c.Bound settings g) (formed : g.Formed)
    {result : Conversation × Except Failure Visit}
    (leaves : Engine.LeavesRoute settings (g.nodeAt (c.next <|> c.current)) c.leavePause result) :
    Arrives (Bound settings g) (g.nodeAt (c.next <|> c.current)) result := by
  have pauses (label : String) (routed : result.1.handoff = some label) :
      (g.nodeAt (c.next <|> c.current)).Offers settings label ∧
        result.1.status = .awaitingApproval ∧
        ∃ run, result.2 = .ok run ∧ run.action = .toolCall := by
    refine (leaves label routed).resolve_left fun ⟨before, other⟩ => ?_
    rw [leavePause_eq] at before
    exact other (bound.nodeAt formed before).1
  obtain ⟨c', result⟩ := result
  cases result with
  | ok run =>
    intro cancel before noted now label routed
    rw [conclude_handoff, arrive_handoff] at routed
    obtain ⟨offers, waits, _, same, runs⟩ := pauses label routed
    cases same
    refine ⟨?_, _, g.nodeAt_mem _, offers, ?_, ?_⟩
    · rw [conclude_waiting ((arrive_status ..).trans waits)]
      nofun
    · rw [conclude_next, runs]
      rfl
    · rw [conclude_current, arrive_current]
  | error f =>
    intro cancel before noted label routed
    have kept : ((c'.arrive (g.nodeAt (c.next <|> c.current)) cancel).noteFailure
        (g.nodeAt (c.next <|> c.current)) before f noted).handoff = c'.handoff := by
      cases before <;> exact arrive_handoff ..
    obtain ⟨-, -, _, run, -⟩ := pauses label (kept.symm.trans routed)
    cases run

end Conversation

end DialogueEngine
