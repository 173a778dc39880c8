import DialogueEngine.Proofs.Engine.Upkeep

/-!
Calls that are due and requests to approve them. The calls that a turn leaves waiting for approval
have all been announced: each was published with a request to approve it, within the stretch that
leaves them. Nothing else that a node does changes what is due.
-/

namespace DialogueEngine

/-- A call of a tool, as it is known to those who are asked to approve it. -/
structure Charge where
  call : String
  provider : String
  tool : String
  deriving DecidableEq

/-- Whether a call is the one that is meant. -/
def Charge.fits (k : Charge) (call : ToolCall) : Bool :=
  call.id = k.call && (ToolName.split call.name).toOption = some (k.provider, k.tool)

/-- Whether an event is a request to approve such a call for a conversation. -/
def Event.requests (id : String) (k : Charge) : Event → Bool
  | .approvalRequested conversation call => conversation = id && k.fits call
  | _ => false

namespace Situation

variable {id : String} {k : Charge} {s s' s'' since : Situation}

/-- How many such calls are pending in a conversation as it is stored; none where it cannot be
read. -/
def due (id : String) (k : Charge) (s : Situation) : Nat :=
  match s.store.backing.get id with
  | .ok (some c) => c.pending.countP k.fits
  | _ => 0

/-- How often approval of such a call has been requested. -/
def requested (id : String) (k : Charge) (s : Situation) : Nat :=
  s.published.countP (Event.requests id k)

/-- More calls are due only as far as their approval has been requested. -/
structure Grows (id : String) (k : Charge) (s s' : Situation) : Prop where
  requested : s.requested id k ≤ s'.requested id k
  due : s'.due id k + s.requested id k ≤ s.due id k + s'.requested id k

theorem due_of_backing (same : s'.store.backing = s.store.backing) : s'.due id k = s.due id k := by
  rw [Situation.due, same, Situation.due]

namespace Grows

theorem of_due (fewer : s'.due id k ≤ s.due id k) (more : s.requested id k ≤ s'.requested id k) :
    Grows id k s s' :=
  ⟨more, by omega⟩

theorem of_published (same : s'.store.backing = s.store.backing)
    (grown : s.published <+: s'.published) : Grows id k s s' :=
  .of_due (due_of_backing same).le grown.sublist.countP_le

theorem refl (s : Situation) : Grows id k s s := .of_due (Nat.le_refl _) (Nat.le_refl _)

theorem trans (first : Grows id k s s') (second : Grows id k s' s'') : Grows id k s s'' where
  requested := first.requested.trans second.requested
  due := by
    have early := first.due
    have late := second.due
    omega

end Grows

theorem steady_grows (id : String) (k : Charge) : Steady (Grows id k) where
  refl := .refl
  trans := .trans
  touches := by
    intro s s' change
    cases change with
    | published other => exact .of_published rfl (List.prefix_append _ _)
    | looked id => exact .of_published (Store.backing_get id s.store) List.prefix_rfl
    | _ => exact .of_published rfl List.prefix_rfl

/-- Approval of all such calls among some has been requested within a stretch. -/
def Announces (id : String) (k : Charge) (calls : List ToolCall) (since s : Situation) : Prop :=
  calls.countP k.fits + since.requested id k ≤ s.requested id k

theorem Grows.announces_nil (grows : Grows id k since s) : Announces id k [] since s := by
  simpa [Announces] using grows.requested

end Situation

namespace Engine

open Situation (Announces Grows)

variable {α β : Type} {id own : String} {k : Charge} {p : TurnPlan} {since s s' : Situation}

/-- From where `pre` holds of the beginning of the stretch under way and the situation, more calls
become due under a computation only as far as their approval is requested, and in the end `post`
holds. -/
def Raises (id : String) (k : Charge) (pre : Situation → Situation → Prop) (x : Engine α)
    (post : Situation → α → Situation → Prop) : Prop :=
  ∀ since s, Grows id k since s → pre since s →
    (x s).Abides (Grows id k) (Grows id k) (fun _ _ => True)
      (fun since a s => Grows id k since s ∧ post since a s) since

namespace Raises

variable {pre : Situation → Situation → Prop}

theorem pure {a : α} {post : Situation → α → Situation → Prop}
    (holds : ∀ since s, pre since s → post since a s) : Raises id k pre (Pure.pure a) post :=
  fun since s grows start => ⟨grows, holds since s start⟩

theorem bind {x : Engine α} {f : α → Engine β} {mid : Situation → α → Situation → Prop}
    {post : Situation → β → Situation → Prop} (first : Raises id k pre x mid)
    (later : ∀ a, Raises id k (mid · a ·) (f a) post) : Raises id k pre (x >>= f) post :=
  fun since s grows start => Activity.abides_bind (first since s grows start)
    fun since a s holds => later a since s holds.1 holds.2

theorem mono {pre' : Situation → Situation → Prop} {x : Engine α}
    {post : Situation → α → Situation → Prop} (raises : Raises id k pre x post)
    (stronger : ∀ since s, Grows id k since s → pre' since s → pre since s) :
    Raises id k pre' x post :=
  fun since s grows start => raises since s grows (stronger since s grows start)

theorem of_upholds {x : Engine α} (upholds : Upholds (Grows id k) x) :
    Raises id k pre x fun _ _ _ => True :=
  fun since s grows _ => (upholds since s grows).mono (fun _ _ asked => asked)
    fun _ _ _ grows => ⟨grows, trivial⟩

/-- What asks nothing, writes nothing and publishes nothing. -/
theorem of_ends {x : Engine α} (ends : ∀ s, (x s).Ends fun _ s' =>
      s'.published = s.published ∧ s'.store.backing = s.store.backing)
    (kept : ∀ since s s', s'.published = s.published → pre since s → pre since s') :
    Raises id k pre x fun since _ s => pre since s :=
  fun since s grows start => (ends s).abides fun _ s' holds =>
    ⟨grows.trans (.of_published holds.2 (by rw [holds.1])), kept since s s' holds.1 start⟩

end Raises

theorem raises_isToBeCancelled {pre : Situation → Situation → Prop} (c : Conversation) :
    Raises id k pre (isToBeCancelled c) fun since _ s => pre since s := by
  intro since s grows start
  unfold isToBeCancelled
  split <;> exact ⟨grows, start⟩

/-! ## Calls -/

/-- The calls of a turn that are set aside for approval have been announced. -/
structure SetsAside (id : String) (k : Charge) (own : String) (p : TurnPlan) (since : Situation)
    (h : Handling) (s : Situation) : Prop where
  named : h.conversation.id = own
  announces : own = id → Announces id k h.gated since s
  required : h.gated ≠ [] → p.requireApproval = true

theorem SetsAside.congr {h h' : Handling} (sets : SetsAside id k own p since h s)
    (named : h'.conversation.id = h.conversation.id) (gated : h'.gated = h.gated)
    (same : s'.published = s.published) : SetsAside id k own p since h' s' where
  named := named.trans sets.named
  announces := fun concerns => by
    have announced := sets.announces concerns
    rw [Announces, Situation.requested, Situation.requested] at announced ⊢
    rwa [gated, same]
  required := by
    rw [gated]
    exact sets.required

/-- What is no tool of a provider is answered at once. -/
theorem raises_invoke_unsplit {pre : Situation → Situation → Prop} (conversation : String)
    {call : ToolCall} (unsplit : (ToolName.split call.name).isOk = false) :
    Raises id k pre (invoke conversation call) fun since _ s => pre since s := by
  unfold invoke
  split
  · exact .pure fun _ _ start => start
  · split
    · exact .pure fun _ _ start => start
    · next found =>
      rw [found] at unsplit
      cases unsplit

theorem raises_handleCall (h : Handling) (call : ToolCall) :
    Raises id k (SetsAside id k own p · h ·) (handleCall p h call) (SetsAside id k own p) := by
  have answers (result : ToolResult) (route : Option String) :
      Raises id k (SetsAside id k own p · h ·)
        (do
          let c ← answerCall p h.conversation call result
          return ⟨c, h.gated, route⟩) (SetsAside id k own p) := by
    have stamps : Raises id k (SetsAside id k own p · h ·) stamp
        fun since _ s => SetsAside id k own p since h s :=
      .of_ends (fun _ => ⟨rfl, rfl⟩) fun _ _ _ same sets => sets.congr rfl rfl same
    have answered : Raises id k (SetsAside id k own p · h ·)
        (answerCall p h.conversation call result) fun since c s =>
          c.id = h.conversation.id ∧ SetsAside id k own p since h s :=
      stamps.bind fun _ => .pure fun _ _ sets => ⟨rfl, sets⟩
    exact answered.bind fun c => .pure fun _ _ holds => holds.2.congr holds.1 rfl rfl
  apply (raises_isToBeCancelled h.conversation).bind
  intro cancel
  split
  · exact answers _ _
  split
  · split <;> exact answers _ _
  split
  · next gate =>
    intro since s grows sets
    refine ⟨grows.trans (.of_published rfl (List.prefix_append _ _)), sets.named,
      fun concerns => ?_, fun _ => (Bool.and_eq_true _ _ ▸ gate).1⟩
    have own : h.conversation.id = id := sets.named.trans concerns
    have before := sets.announces concerns
    simp only [Announces, Situation.requested, List.countP_append, List.countP_cons,
      List.countP_nil, Event.requests, own, decide_true, Bool.true_and] at before ⊢
    omega
  · next direct =>
    -- A call that is run takes an answer, and what has been announced belongs to an earlier stretch
    -- then; but once a call is set aside, approval is required and nothing is run any more.
    have runs : Raises id k (SetsAside id k own p · h ·) (invoke h.conversation.id call)
        fun since _ s => SetsAside id k own p since h s := by
      intro since s grows sets
      by_cases waiting : h.gated = []
      · have invokes := upholds_invoke (Situation.steady_grows id k) h.conversation.id call
        refine (invokes since s grows).mono (fun _ _ asked => asked) fun _ _ _ grows => ?_
        exact ⟨grows, sets.named, fun _ => waiting ▸ grows.announces_nil, sets.required⟩
      · have unsplit : (ToolName.split call.name).isOk = false := by
          simpa [sets.required waiting] using direct
        exact raises_invoke_unsplit _ unsplit since s grows sets
    apply runs.bind
    intro outcome
    split
    · exact .pure fun _ _ sets => sets
    · exact answers _ _

theorem raises_handleCalls (h : Handling) (calls : List ToolCall) :
    Raises id k (SetsAside id k own p · h ·) (handleCalls p h calls) (SetsAside id k own p) := by
  induction calls generalizing h with
  | nil => exact .pure fun _ _ sets => sets
  | cons call rest ih => exact (raises_handleCall h call).bind ih

/-! ## Turns -/

/-- A turn that ends by waiting for approval has announced the calls that it waits for. -/
def Waits (id : String) (k : Charge) (since : Situation)
    (found : Conversation × Except Failure TurnOutcome) (s : Situation) : Prop :=
  ∀ outcome, found.2 = .ok outcome → outcome.action = .toolCall → found.1.id = id →
    Announces id k found.1.pending since s

theorem Waits.of_error {found : Conversation × Except Failure TurnOutcome} {f : Failure}
    (failed : found.2 = .error f) : Waits id k since found s := by
  intro outcome same
  rw [failed] at same
  cases same

theorem Waits.of_action {found : Conversation × Except Failure TurnOutcome}
    {outcome : TurnOutcome} (ended : found.2 = .ok outcome) (other : outcome.action ≠ .toolCall) :
    Waits id k since found s := by
  intro outcome' same action
  rw [ended] at same
  cases same
  exact absurd action other

theorem raises_converse {pre : Situation → Situation → Prop} (systemPrompt : String)
    (specs : List DeclaredTool) (most left calls : Nat) (c : Conversation) :
    Raises id k pre (converse p systemPrompt specs most left calls c) (Waits id k) := by
  have steady := Situation.steady_grows id k
  induction left generalizing calls c pre with
  | zero =>
    apply (raises_isToBeCancelled c).bind
    intro cancel
    split
    · exact .pure fun _ _ _ => .of_action rfl (by simp [TurnOutcome.action])
    · exact .pure fun _ _ _ => .of_error rfl
  | succ left ih =>
    apply (raises_isToBeCancelled c).bind
    intro cancel
    split
    · exact .pure fun _ _ _ => .of_action rfl (by simp [TurnOutcome.action])
    apply (Raises.of_upholds (upholds_transcript steady systemPrompt c)).bind
    intro messages
    apply (Raises.of_upholds (upholds_ask steady (.complete ..))).bind
    intro answer
    split
    · exact .pure fun _ _ _ => .of_error rfl
    next completion =>
    apply (Raises.of_upholds (upholds_stamp steady)).bind
    intro t
    dsimp only
    split
    · exact .pure fun _ _ _ => .of_action rfl (by simp [TurnOutcome.action])
    have handles (h : Handling) : Raises id k (SetsAside id k c.id p · h ·)
        (handleCalls p h completion.toolCalls) (SetsAside id k c.id p) := raises_handleCalls h _
    apply ((handles _).mono fun _ _ grows _ => ⟨rfl, fun _ => grows.announces_nil, by simp⟩).bind
    intro h
    split
    · next some =>
      have waiting : h.gated.isEmpty = false := by simpa using some
      have reads : Raises id k (SetsAside id k c.id p · h ·) now
          fun since _ s => SetsAside id k c.id p since h s :=
        .of_ends (fun _ => ⟨rfl, rfl⟩) fun _ _ _ same sets => sets.congr rfl rfl same
      apply reads.bind
      intro now
      refine .pure fun since s sets outcome _ _ concerns => ?_
      have own : c.id = id := by
        rw [← sets.named]
        simpa [Conversation.pauseFor, waiting] using concerns
      simpa [Conversation.pauseFor, waiting] using sets.announces own
    split
    · exact .pure fun _ _ _ => .of_action rfl (by simp [TurnOutcome.action])
    · exact ih (calls + 1) h.conversation

theorem raises_runTurn {pre : Situation → Situation → Prop} (p : TurnPlan) (c : Conversation) :
    Raises id k pre (runTurn p c) (Waits id k) := by
  have steady := Situation.steady_grows id k
  unfold runTurn
  dsimp only
  split
  · exact .pure fun _ _ _ => .of_action rfl (by simp [TurnOutcome.action])
  · apply (Raises.of_upholds (upholds_turnTools steady p _)).bind
    intro found
    split
    · exact .pure fun _ _ _ => .of_error rfl
    · apply (Raises.of_upholds upholds_situation).bind
      intro s
      exact raises_converse _ _ _ _ _ _

/-! ## Nodes -/

/-- The calls that the run of a process leaves waiting have been announced. -/
theorem raises_visit {pre : Situation → Situation → Prop} (node : Node) (c : Conversation) :
    Raises id k pre (visit node c) fun since found s => ∀ run spec,
      node.spec = .process spec → found.2 = .ok run → run.action = .toolCall → found.1.id = id →
      Announces id k found.1.pending since s := by
  have steady := Situation.steady_grows id k
  cases kind : node.spec with
  | process spec =>
    unfold visit
    rw [kind]
    apply (Raises.of_upholds upholds_situation).bind
    intro s
    split
    · exact .pure fun _ _ _ => by simp
    apply (raises_runTurn _ c).bind
    intro found
    split
    · exact .pure fun _ _ _ => by simp
    · next c' outcome =>
      refine .pure fun since s waits run spec _ same => ?_
      cases same
      exact waits outcome rfl
  | start | toolProvider | finish =>
    intro since s grows _
    refine (upholds_visit steady node c since s grows).mono (fun _ _ asked => asked)
      fun _ _ _ grows => ⟨grows, fun run spec same => ?_⟩
    cases same

end Engine

end DialogueEngine
