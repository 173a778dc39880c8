import DialogueEngine.Proofs.Engine.Standing
import DialogueEngine.Proofs.Engine.Turn
import DialogueEngine.Proofs.Interaction.Stretches

/-!
A node that is run minds requests to cancel its conversation. It changes nothing that concerns
conversations, whoever they are; it asks for no completion and for no tool to be run while such a
request is parked; and no call waits for approval that was treated after one had been parked.
-/

namespace DialogueEngine

/-- Whether a question makes the model go on or a provider run a tool. -/
def Question.acts : Question → Bool
  | .complete .. | .runTool .. => true
  | _ => false

namespace Engine

variable {α β : Type} {id : String} {pre : List String → Prop}

/-- From requests that satisfy `pre`, a computation minds those to cancel a conversation: whatever
concerns conversations is as it was where the stretch began, and nobody is made to act while such a
request is parked. Value and requests satisfy `post` in the end. -/
def Minds (id : String) (pre : List String → Prop) (x : Engine α)
    (post : α → List String → Prop) : Prop :=
  ∀ since s, s.core = since.core → pre s.cancelRequests →
    (x s).Abides (fun s s' => s'.settings = s.settings) (fun since s => s.core = since.core)
      (fun s q => q.acts = true → id ∉ s.cancelRequests)
      (fun since a s => s.core = since.core ∧ post a s.cancelRequests) since

namespace Minds

theorem pure {a : α} {post : α → List String → Prop}
    (holds : ∀ parked, pre parked → post a parked) : Minds id pre (Pure.pure a) post :=
  fun _ s same start => ⟨same, holds s.cancelRequests start⟩

theorem bind {x : Engine α} {f : α → Engine β} {mid : α → List String → Prop}
    {post : β → List String → Prop} (first : Minds id pre x mid)
    (later : ∀ a, Minds id (mid a) (f a) post) : Minds id pre (x >>= f) post :=
  fun since s same start => Activity.abides_bind (first since s same start)
    fun since' a _ holds => later a since' _ holds.1 holds.2

theorem mono {pre' : List String → Prop} {x : Engine α} {post post' : α → List String → Prop}
    (minds : Minds id pre x post) (stronger : ∀ parked, pre' parked → pre parked)
    (weaker : ∀ a parked, post a parked → post' a parked) : Minds id pre' x post' :=
  fun since s same start => (minds since s same (stronger _ start)).mono
    (fun _ _ asked => asked) fun _ a _ holds => ⟨holds.1, weaker a _ holds.2⟩

/-- What a condition on the requests says of nothing else can be relied on. -/
theorem given {P : Prop} {x : Engine α} {post : α → List String → Prop}
    (said : ∀ parked, pre parked → P) (minds : P → Minds id pre x post) : Minds id pre x post :=
  fun since s same start => minds (said _ start) since s same start

end Minds

/-! ## What nodes are made of -/

theorem minds_ask (q : Question) (free : q.acts = true → ∀ parked, pre parked → id ∉ parked) :
    Minds id pre (ask q) fun _ _ => True :=
  fun _ s same start =>
    ⟨same, fun acts => free acts s.cancelRequests start, fun _ _ _ => ⟨rfl, trivial⟩⟩

theorem minds_situation : Minds id pre situation fun s parked =>
    pre parked ∧ parked = s.cancelRequests :=
  fun _ _ same start => ⟨same, start, rfl⟩

theorem minds_stamp : Minds id pre stamp fun _ => pre :=
  fun _ _ same start => ⟨same, start⟩

theorem minds_now : Minds id pre now fun _ => pre :=
  minds_stamp.bind fun _ => .pure fun _ start => start

theorem minds_publish {e : Event} (other : e.isStart = false) :
    Minds id pre (publish e) fun _ => pre :=
  fun _ s same start => ⟨(Situation.core_publish other s).trans same, start⟩

theorem minds_isToBeCancelled {c : Conversation} (named : c.id = id) :
    Minds id pre (isToBeCancelled c) fun cancel parked =>
      pre parked ∧ (cancel = false → id ∉ parked) := by
  unfold isToBeCancelled
  split
  · exact .pure fun _ start => ⟨start, fun no => by cases no⟩
  · refine minds_situation.bind fun s => .pure ?_
    rintro parked ⟨start, rfl⟩
    exact ⟨start, fun no => by simpa [named] using no⟩

/-! ## Tools -/

theorem minds_ensureConnected (ref : ProviderRef) :
    Minds id pre (ensureConnected ref) fun _ _ => True := by
  apply (minds_ask (.hasConnection _) (fun acts => by cases acts)).bind
  intro connected
  split
  · exact .pure fun _ _ => trivial
  · exact minds_ask (.connect ..) fun acts => by cases acts

theorem minds_fullListing (ref : ProviderRef) :
    Minds id pre (fullListing ref) fun _ _ => True := by
  apply (minds_ensureConnected ref).bind
  intro connected
  split
  · exact (minds_publish rfl).bind fun _ => .pure fun _ _ => trivial
  · apply (minds_ask (.listing _) (fun acts => by cases acts)).bind
    intro listing
    split <;> exact .pure fun _ _ => trivial

/-- A conversation that is named as another and has the same calls pending. -/
structure Resembles (c c' : Conversation) : Prop where
  id : c'.id = c.id
  pending : c'.pending = c.pending

theorem Resembles.refl (c : Conversation) : Resembles c c := ⟨rfl, rfl⟩

theorem Resembles.trans {c c' c'' : Conversation} (first : Resembles c c')
    (second : Resembles c' c'') : Resembles c c'' :=
  ⟨second.id.trans first.id, second.pending.trans first.pending⟩

theorem minds_toolsOf (c : Conversation) (ref : ProviderRef) :
    Minds id pre (toolsOf c ref) fun found _ => Resembles c found.1 := by
  apply (minds_ask (.revision _) (fun acts => by cases acts)).bind
  intro revision
  split
  · exact .pure fun _ _ => ⟨rfl, rfl⟩
  · apply (minds_fullListing ref).bind
    intro listed
    split
    · exact .pure fun _ _ => ⟨rfl, rfl⟩
    · exact .pure fun _ _ => ⟨rfl, rfl⟩
    · exact minds_now.bind fun now => .pure fun _ _ => ⟨rfl, rfl⟩

theorem minds_toolsOfAll (c : Conversation) (refs : List ProviderRef) :
    Minds id pre (toolsOfAll c refs) fun found _ => Resembles c found.1 := by
  induction refs generalizing c pre with
  | nil => exact .pure fun _ _ => .refl c
  | cons ref rest ih =>
    apply (minds_toolsOf c ref).bind
    intro found
    refine .given (fun _ same => same) fun same => ?_
    split
    · exact .pure fun _ _ => same
    · next c' tools =>
      apply (ih c').bind
      intro others
      split <;> exact .pure fun _ later => same.trans later

theorem minds_turnTools (p : TurnPlan) (c : Conversation) :
    Minds id pre (turnTools p c) fun found _ => Resembles c found.1 := by
  apply (minds_toolsOfAll c p.providerRefs).bind
  intro found
  split
  · exact .pure fun _ same => same
  · dsimp only
    split <;> exact .pure fun _ same => same

/-! ## Calls -/

/-- Running a call of a tool takes an answer; what is no tool of a provider is answered at once. -/
theorem minds_invoke (conversation : String) (call : ToolCall)
    (free : ∀ parked, pre parked → id ∉ parked) :
    Minds id pre (invoke conversation call) fun _ _ => True := by
  unfold invoke
  split
  · exact .pure fun _ _ => trivial
  · split
    · exact .pure fun _ _ => trivial
    · apply (minds_publish rfl).bind
      intro _
      apply (minds_ask _ fun _ => free).bind
      intro answer
      exact (minds_publish rfl).bind fun _ => .pure fun _ _ => trivial

theorem minds_invoke_unsplit (conversation : String) {call : ToolCall}
    (unsplit : (ToolName.split call.name).isOk = false) :
    Minds id pre (invoke conversation call) fun _ => pre := by
  unfold invoke
  split
  · exact .pure fun _ start => start
  · split
    · exact .pure fun _ start => start
    · next found =>
      rw [found] at unsplit
      cases unsplit

theorem minds_answerCall (p : TurnPlan) (c : Conversation) (call : ToolCall)
    (result : ToolResult) : Minds id pre (answerCall p c call result) fun c' parked =>
      Resembles c c' ∧ pre parked :=
  minds_stamp.bind fun _ => .pure fun _ start => ⟨⟨rfl, rfl⟩, start⟩

/-- Calls have begun to wait for approval while no request was parked, and none is run since. -/
def Gates (id : String) (p : TurnPlan) (h : Handling) (parked : List String) : Prop :=
  h.gated ≠ [] → p.requireApproval = true ∧ id ∉ parked

theorem minds_handleCall {p : TurnPlan} {h : Handling} (named : h.conversation.id = id)
    (call : ToolCall) : Minds id (Gates id p h) (handleCall p h call) fun h' parked =>
      Resembles h.conversation h'.conversation ∧ Gates id p h' parked := by
  have answers {pre : List String → Prop} (result : ToolResult) (route : Option String)
      (start : ∀ parked, pre parked → Gates id p h parked) :
      Minds id pre
        (do
          let c ← answerCall p h.conversation call result
          return ⟨c, h.gated, route⟩)
        fun h' parked => Resembles h.conversation h'.conversation ∧ Gates id p h' parked :=
    (minds_answerCall p h.conversation call result).bind fun c =>
      .pure fun _ holds => ⟨holds.1, start _ holds.2⟩
  unfold handleCall
  apply (minds_isToBeCancelled named).bind
  intro cancel
  split
  · exact answers _ _ fun _ holds => holds.1
  next goesOn =>
  have going : cancel = false := by simpa using goesOn
  split
  · split
    · exact answers _ _ fun _ holds => holds.1
    · exact answers _ _ fun _ holds => holds.1
  split
  · next gate =>
    have required : p.requireApproval = true := (Bool.and_eq_true _ _ ▸ gate).1
    apply (minds_publish rfl).bind
    intro _
    exact .pure fun _ holds => ⟨.refl _, fun _ => ⟨required, holds.2 going⟩⟩
  · next direct =>
    -- Once a call waits, approval is required, so that what is not gated is no tool of a provider
    -- and asks nothing: the calls that wait have not been overtaken by a request.
    have runs : Minds id
        (fun parked => Gates id p h parked ∧ (cancel = false → id ∉ parked))
        (invoke h.conversation.id call) fun _ => Gates id p h := by
      by_cases waiting : h.gated = []
      · refine (minds_invoke _ call fun _ holds => holds.2 going).mono (fun _ holds => holds) ?_
        exact fun _ _ _ some => absurd waiting some
      · refine .given (fun parked holds => (holds.1 waiting).1) fun required => ?_
        have unsplit : (ToolName.split call.name).isOk = false := by simpa [required] using direct
        exact (minds_invoke_unsplit _ unsplit).mono (fun _ holds => holds) fun _ _ holds => holds.1
    apply runs.bind
    intro outcome
    split
    · exact .pure fun _ holds => ⟨.refl _, holds⟩
    · exact answers _ _ fun _ holds => holds

theorem minds_handleCalls {p : TurnPlan} {h : Handling} (named : h.conversation.id = id)
    (calls : List ToolCall) : Minds id (Gates id p h) (handleCalls p h calls) fun h' parked =>
      Resembles h.conversation h'.conversation ∧ Gates id p h' parked := by
  induction calls generalizing h with
  | nil => exact .pure fun _ start => ⟨.refl _, start⟩
  | cons call rest ih =>
    apply (minds_handleCall named call).bind
    intro h'
    refine .given (fun _ holds => holds.1) fun same => ?_
    refine (ih (same.id.trans named)).mono (fun _ holds => holds.2) ?_
    exact fun _ _ later => ⟨same.trans later.1, later.2⟩

/-! ## Turns -/

theorem minds_transcript (systemPrompt : String) (c : Conversation) :
    Minds id pre (transcript systemPrompt c) fun _ => pre := by
  unfold transcript
  split
  · exact .pure fun _ start => start
  · exact minds_stamp.bind fun _ => .pure fun _ start => start

/-- What has become of a conversation that a node was run for: nothing new is pending in it if a
request is parked. -/
def Undisturbed (id : String) (base c : Conversation) (parked : List String) : Prop :=
  c.id = base.id ∧ (id ∈ parked → c.pending = base.pending)

theorem Resembles.undisturbed {base c : Conversation} (same : Resembles base c)
    (parked : List String) : Undisturbed id base c parked :=
  ⟨same.id, fun _ => same.pending⟩

theorem minds_converse {base c : Conversation} (named : base.id = id) (same : Resembles base c)
    (p : TurnPlan) (systemPrompt : String) (specs : List DeclaredTool) (most left calls : Nat) :
    Minds id pre (converse p systemPrompt specs most left calls c) fun found parked =>
      Undisturbed id base found.1 parked := by
  have own : c.id = id := same.id.trans named
  have stopped : Resembles base { c with cancelled := true } := ⟨same.id, same.pending⟩
  -- Each round begins with a look at the requests, so nothing need be known of them before it.
  induction left generalizing calls c pre with
  | zero =>
    apply (minds_isToBeCancelled own).bind
    intro cancel
    split
    · exact .pure fun _ _ => stopped.undisturbed _
    · exact .pure fun _ _ => same.undisturbed _
  | succ left ih =>
    apply (minds_isToBeCancelled own).bind
    intro cancel
    split
    · exact .pure fun _ _ => stopped.undisturbed _
    next goesOn =>
    have going : cancel = false := by simpa using goesOn
    apply (minds_transcript systemPrompt c).bind
    intro messages
    apply (minds_ask _ fun _ _ holds => holds.2 going).bind
    intro answer
    split
    · exact .pure fun _ _ => same.undisturbed _
    next completion =>
    apply minds_stamp.bind
    intro s
    dsimp only
    have heard : Resembles base (c.push ((Message.assistant completion.content
        completion.toolCalls s).saidAt p.node) s.instant) := ⟨same.id, same.pending⟩
    split
    · exact .pure fun _ _ => heard.undisturbed _
    refine (minds_handleCalls (p := p) (heard.id.trans named) completion.toolCalls).mono
      (fun _ _ some => absurd rfl some) (fun _ _ holds => holds) |>.bind ?_
    intro h
    refine .given (fun _ holds => holds.1) fun later => ?_
    have treated := heard.trans later
    split
    · next some =>
      have gated : h.gated ≠ [] := by simpa using some
      have waiting : h.gated.isEmpty = false := by simpa using some
      apply minds_now.bind
      intro now
      refine .pure fun parked holds => ⟨?_, fun requested => ?_⟩
      · simpa [Conversation.pauseFor, waiting] using treated.id
      · exact absurd requested (holds.2 gated).2
    split
    · exact .pure fun _ _ => treated.undisturbed _
    · exact ih treated (calls + 1) (treated.id.trans named) ⟨treated.id, treated.pending⟩

theorem minds_runTurn {c : Conversation} (named : c.id = id) (p : TurnPlan) :
    Minds id pre (runTurn p c) fun found parked => Undisturbed id c found.1 parked := by
  have cleared : Resembles c { c with handoff := none } := ⟨rfl, rfl⟩
  unfold runTurn
  dsimp only
  split
  · exact .pure fun _ _ => cleared.undisturbed _
  · apply (minds_turnTools p _).bind
    intro found
    refine .given (fun _ same => same) fun same => ?_
    split
    · exact .pure fun _ _ => (cleared.trans same).undisturbed _
    · apply minds_situation.bind
      intro s
      exact minds_converse named (cleared.trans same) p _ _ _ _ _

/-! ## Nodes -/

theorem minds_runProcess {c : Conversation} (named : c.id = id) (node : Node)
    (spec : ProcessSpec) :
    Minds id pre (runProcess node spec c) fun found parked => Undisturbed id c found.1 parked := by
  apply minds_situation.bind
  intro s
  split
  · exact .pure fun _ _ => (Resembles.refl c).undisturbed _
  next plan _ =>
  apply (minds_runTurn named plan).bind
  intro result
  split <;> exact .pure fun _ same => same

theorem minds_runToolProvider (c : Conversation) (node : Node) (spec : ProviderSpec) :
    Minds id pre (runToolProvider node spec c) fun found parked =>
      Undisturbed id c found.1 parked := by
  unfold runToolProvider
  split
  · exact .pure fun _ _ => (Resembles.refl c).undisturbed _
  · apply (minds_ask (.revision _) (fun acts => by cases acts)).bind
    intro revision
    apply (minds_fullListing _).bind
    intro listed
    have kept (provider : String) (tools : List OfferedTool) (now : Instant) :
        Resembles c (c.keepListing provider tools revision now) := ⟨rfl, rfl⟩
    split
    · exact .pure fun _ _ => (Resembles.refl c).undisturbed _
    · exact .pure fun _ _ => (Resembles.refl c).undisturbed _
    · exact minds_now.bind fun now => .pure fun _ _ => (kept _ _ now).undisturbed _

theorem minds_visit {c : Conversation} (named : c.id = id) (node : Node) :
    Minds id pre (visit node c) fun found parked => Undisturbed id c found.1 parked := by
  unfold visit
  split
  · exact minds_now.bind fun now => .pure fun _ _ => ⟨rfl, fun _ => rfl⟩
  · exact minds_runProcess named node _
  · exact minds_runToolProvider c node _
  · exact minds_now.bind fun now => .pure fun _ _ => ⟨rfl, fun _ => rfl⟩

end Engine

end DialogueEngine
