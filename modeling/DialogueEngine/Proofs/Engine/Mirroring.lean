import DialogueEngine.Proofs.Conversation.Essence
import DialogueEngine.Proofs.Engine.Advancing
import DialogueEngine.Proofs.Interaction.Likeness

/-!
The operations on one conversation that is watched in two ways. In two situations that share all
but how the conversation is watched, each operation asks the same questions, publishes the same
events and comes to results that are the same but for the watching; what it leaves are two such
situations again.
-/

namespace DialogueEngine

/-- A question but for the names and instants that were drawn for messages. -/
def Question.essence : Question → Question
  | .complete model messages tools => .complete model (messages.map Message.essence) tools
  | q => q

namespace Operation

/-- What an operation gives back, but for how the conversation is watched. -/
def Outcome.essence : Outcome → Outcome
  | .done => .done
  | .conversation c => .conversation c.essence
  | .step o => .step { o with conversation := o.conversation.essence }
  | .record r => .record r

/-- The operations that go on with a conversation. -/
inductive Drives (id : String) : Operation → Prop
  | step : Drives id (.step id)
  | post (text : String) : Drives id (.post id text)
  | resolve (call : String) (decision : Decision) : Drives id (.resolve id call decision)
  | cancel : Drives id (.cancel id)

end Operation

/-- A conversation and the two ways in which it is watched. -/
structure Watching where
  id : String
  mode : Bool
  mode' : Bool

/-- Two situations that share all but their stores, their cursors and their clocks. -/
structure Situation.Parallel (s s' : Situation) : Prop where
  settings : s.settings = s'.settings
  flows : s.flows = s'.flows
  claimed : s.claimed = s'.claimed
  cancelRequests : s.cancelRequests = s'.cancelRequests
  published : s.published = s'.published

/-- Two parallel situations in which a conversation is watched in two ways. The stores neither fail
nor alter what they are given. -/
structure Watching.Shares (w : Watching) (s s' : Situation) : Prop
    extends Situation.Parallel s s' where
  dependable : s.store.Dependable fun _ => True
  dependable' : s'.store.Dependable fun _ => True
  held : ∃ a b, s.store.backing.get w.id = .ok (some a) ∧
    s'.store.backing.get w.id = .ok (some b) ∧ Conversation.Mirrors w.mode w.mode' a b

namespace Engine

open Conversation (Mirrors Runs)

/-- Two computations are alike wherever all but the watching is shared. -/
abbrev Likewise {α β : Type} (w : Watching) (x : Engine α) (y : Engine β)
    (ends : α → β → Prop) : Prop :=
  Activity.Alike w.Shares (fun q q' => q.essence = q'.essence) ends x y

/-- Two results that are failures for one reason, or values that are related. -/
inductive Matches {ε α β : Type} (rel : α → β → Prop) : Except ε α → Except ε β → Prop
  | ok {a : α} {b : β} (related : rel a b) : Matches rel (.ok a) (.ok b)
  | error (f : ε) : Matches rel (.error f) (.error f)

section

variable {α β : Type} {w : Watching}

/-! ## What the operations are made of -/

theorem likewise_of_same {x : Engine α} {y : Engine β} {ends : α → β → Prop}
    (stops : ∀ s s', w.Shares s s' → ∃ t a t' b, x s = .done t a ∧ y s' = .done t' b ∧
      w.Shares t t' ∧ ends a b) : Likewise w x y ends := by
  intro s s' same
  obtain ⟨t, a, t', b, left, right, shares, agree⟩ := stops s s' same
  rw [left, right]
  exact .done shares agree

theorem likewise_update {f f' : Situation → Situation}
    (shares : ∀ s s', w.Shares s s' → w.Shares (f s) (f' s')) :
    Likewise w (update f) (update f') Eq :=
  likewise_of_same fun s s' same => ⟨_, _, _, _, rfl, rfl, shares s s' same, rfl⟩

theorem likewise_settings : Likewise w situation situation fun s s' => s.settings = s'.settings ∧
    s.flows = s'.flows ∧ s.cancelRequests = s'.cancelRequests :=
  likewise_of_same fun _ _ same =>
    ⟨_, _, _, _, rfl, rfl, same, same.settings, same.flows, same.cancelRequests⟩

theorem likewise_publish {e e' : Event} (told : e = e') :
    Likewise w (publish e) (publish e') Eq := by
  subst told
  exact likewise_update fun _ _ same =>
    { same with published := congrArg (· ++ [e]) same.published }

/-- Names and instants are drawn anew, whatever is drawn. -/
theorem likewise_stamp : Likewise w stamp stamp fun _ _ => True :=
  likewise_of_same fun _ _ same => ⟨_, _, _, _, rfl, rfl, { same with }, trivial⟩

theorem likewise_now : Likewise w now now fun _ _ => True :=
  likewise_stamp.bind fun _ _ _ => .pure trivial

/-- An instant may be drawn on one side only. -/
theorem likewise_now_left {f : Instant → Engine α} {y : Engine β} {ends : α → β → Prop}
    (later : ∀ t, Likewise w (f t) y ends) : Likewise w (now >>= f) y ends :=
  fun _ _ same => later _ _ _ { same with }

theorem likewise_now_right {x : Engine α} {g : Instant → Engine β} {ends : α → β → Prop}
    (later : ∀ t, Likewise w x (g t) ends) : Likewise w x (now >>= g) ends :=
  fun _ _ same => later _ _ _ { same with }

theorem likewise_ask (q : Question) : Likewise w (ask q) (ask q) Eq :=
  fun _ _ same => .ask same rfl fun _ _ answers _ _ same' => .done same' (eq_of_heq answers)

/-- The model is asked with a transcript. -/
theorem likewise_complete (model : String) {messages messages' : List Message}
    (same : messages.map Message.essence = messages'.map Message.essence)
    (tools : List DeclaredTool) :
    Likewise w (ask (.complete model messages tools)) (ask (.complete model messages' tools))
      fun (x y : Except ModelFailure Completion) => x = y :=
  fun _ _ shares => .ask shares (congrArg (Question.complete model · tools) same)
    fun _ _ answers _ _ shares' => .done shares' (eq_of_heq answers)

theorem likewise_tryClaim (id : String) : Likewise w (tryClaim id) (tryClaim id) Eq := by
  intro s s' same
  unfold tryClaim
  rw [← same.claimed]
  split
  · exact .done same rfl
  · exact .done { same with claimed := rfl } rfl

theorem likewise_release (id : String) : Likewise w (release id) (release id) Eq :=
  likewise_update fun _ _ same =>
    { same with claimed := congrArg (List.filter (· != id)) same.claimed }

theorem likewise_parkCancel (id : String) : Likewise w (parkCancel id) (parkCancel id) Eq := by
  refine likewise_update fun s s' same => ?_
  rw [← same.cancelRequests]
  split
  · exact same
  · exact { same with cancelRequests := rfl }

theorem likewise_takeCancel {id id' : String} (named : id = id') :
    Likewise w (takeCancel id) (takeCancel id') Eq := by
  subst named
  exact likewise_of_same fun _ _ same => ⟨_, _, _, _, rfl, rfl,
    { same with cancelRequests := congrArg (List.filter (· != id)) same.cancelRequests },
    congrArg (List.contains · id) same.cancelRequests⟩

theorem likewise_load : Likewise w (load w.id) (load w.id) (Matches (Mirrors w.mode w.mode')) := by
  refine likewise_of_same fun s s' same => ?_
  obtain ⟨a, b, held, held', mirrors⟩ := same.held
  refine ⟨s, .ok a, s', .ok b, ?_, ?_, same, .ok mirrors⟩
  · exact load_found same.dependable held
  · exact load_found same.dependable' held'

theorem likewise_graph {flow flow' : String} (named : flow = flow') :
    Likewise w (graph flow) (graph flow') Eq := by
  subst named
  apply likewise_settings.bind
  rintro s s' ⟨-, flows, -⟩
  rw [flows]
  split
  · exact .pure rfl
  · exact .pure rfl

theorem likewise_claiming {id : String} {x : Engine (Except Failure α)}
    {y : Engine (Except Failure β)} {rel : α → β → Prop} (alike : Likewise w x y (Matches rel)) :
    Likewise w (claiming id x) (claiming id y) (Matches rel) := by
  apply (likewise_tryClaim id).bind
  rintro free _ rfl
  cases free with
  | false => exact .pure (.error _)
  | true =>
    apply alike.bind
    intro result result' matches_
    exact (likewise_release id).bind fun _ _ _ => .pure matches_

end

section

variable {w : Watching} {a b : Conversation}

theorem likewise_write (mirrors : Mirrors w.mode w.mode' a b) :
    Likewise w (write a) (write b) fun x y => x = .ok () ∧ y = .ok () := by
  refine likewise_of_same fun s s' same => ?_
  refine ⟨_, _, _, _, write_done same.dependable a, write_done same.dependable' b, ?_, rfl, rfl⟩
  refine { same with
    dependable := same.dependable.of_put a, dependable' := same.dependable'.of_put b, held := ?_ }
  obtain ⟨a₀, b₀, held, held', mirrors₀⟩ := same.held
  dsimp only
  rw [same.dependable.backing_get_put, same.dependable'.backing_get_put, ← mirrors.id]
  split
  · exact ⟨a, b, rfl, rfl, mirrors⟩
  · exact ⟨a₀, b₀, held, held', mirrors₀⟩

theorem likewise_isToBeCancelled (mirrors : Mirrors w.mode w.mode' a b) :
    Likewise w (isToBeCancelled a) (isToBeCancelled b) Eq := by
  unfold isToBeCancelled cancelParked
  rw [mirrors.cancelled, mirrors.id]
  split
  · exact .pure rfl
  · apply likewise_settings.bind
    rintro s s' ⟨-, -, requests⟩
    exact .pure (congrArg (List.contains · _) requests)

theorem likewise_save (mirrors : Mirrors w.mode w.mode' a b) :
    Likewise w (save a) (save b) (Matches (Mirrors w.mode w.mode')) := by
  apply (likewise_write mirrors).bind
  rintro _ _ ⟨rfl, rfl⟩
  exact .pure (.ok mirrors)

/-! ## Tools -/

theorem likewise_ensureConnected (r : ProviderRef) :
    Likewise w (ensureConnected r) (ensureConnected r) Eq := by
  apply (likewise_ask (.hasConnection r.provider)).bind
  rintro connected _ rfl
  split
  · exact .pure rfl
  · exact likewise_ask (.connect r.provider r.env)

theorem likewise_fullListing (r : ProviderRef) :
    Likewise w (fullListing r) (fullListing r) Eq := by
  apply (likewise_ensureConnected r).bind
  rintro connected _ rfl
  split
  · exact (likewise_publish rfl).bind fun _ _ _ => .pure rfl
  · apply (likewise_ask (.listing r.provider)).bind
    rintro listing _ rfl
    split
    · exact .pure rfl
    · exact .pure rfl

/-- What a computation makes of a conversation is again watched in two ways; all else that comes of
it is one. -/
abbrev Carries {α : Type} (w : Watching) (x y : Conversation × α) : Prop :=
  Runs w.mode w.mode' x.1 y.1 ∧ x.2 = y.2

theorem likewise_toolsOf (runs : Runs w.mode w.mode' a b) (r : ProviderRef) :
    Likewise w (toolsOf a r) (toolsOf b r) (Carries w) := by
  apply (likewise_ask (.revision r.provider)).bind
  rintro revision _ rfl
  rw [runs.keptListing]
  split
  · exact .pure ⟨runs, rfl⟩
  · apply (likewise_fullListing r).bind
    rintro listed _ rfl
    split
    · exact .pure ⟨runs, rfl⟩
    · exact .pure ⟨runs, rfl⟩
    · apply likewise_now.bind
      intro now now' _
      exact .pure ⟨runs.goesOn (runs.keepListing _ _ _ now now') rfl, rfl⟩

theorem likewise_toolsOfAll (runs : Runs w.mode w.mode' a b) (refs : List ProviderRef) :
    Likewise w (toolsOfAll a refs) (toolsOfAll b refs) (Carries w) := by
  induction refs generalizing a b with
  | nil => exact .pure ⟨runs, rfl⟩
  | cons r rest ih =>
    apply (likewise_toolsOf runs r).bind
    rintro ⟨a, found⟩ ⟨b, _⟩ ⟨runs, rfl⟩
    cases found with
    | error f => exact .pure ⟨runs, rfl⟩
    | ok tools =>
      apply (ih runs).bind
      rintro ⟨a, others⟩ ⟨b, _⟩ ⟨runs, rfl⟩
      cases others with
      | error f => exact .pure ⟨runs, rfl⟩
      | ok others => exact .pure ⟨runs, rfl⟩

theorem likewise_turnTools (runs : Runs w.mode w.mode' a b) (p : TurnPlan) :
    Likewise w (turnTools p a) (turnTools p b) (Carries w) := by
  apply (likewise_toolsOfAll runs p.providerRefs).bind
  rintro ⟨a, found⟩ ⟨b, _⟩ ⟨runs, rfl⟩
  cases found with
  | error f => exact .pure ⟨runs, rfl⟩
  | ok tools =>
    dsimp only
    split
    · exact .pure ⟨runs, rfl⟩
    · exact .pure ⟨runs, rfl⟩

theorem likewise_invoke {conversation conversation' : String}
    (named : conversation = conversation') (call : ToolCall) :
    Likewise w (invoke conversation call) (invoke conversation' call) Eq := by
  subst named
  unfold invoke
  split
  · exact .pure rfl
  · split
    · exact .pure rfl
    · apply (likewise_publish rfl).bind
      rintro _ _ -
      apply (likewise_ask (.runTool ..)).bind
      rintro answer _ rfl
      exact (likewise_publish rfl).bind fun _ _ _ => .pure rfl

/-! ## The turn of a process -/

/-- The message that answers a call is the same but for what is drawn for it. -/
theorem essence_answering (call : String) (result : ToolResult) (node : String)
    (stamp stamp' : Stamp) : ((Message.answering call result stamp).saidAt node).essence =
      ((Message.answering call result stamp').saidAt node).essence := rfl

theorem likewise_answerCall (runs : Runs w.mode w.mode' a b) (p : TurnPlan) (call : ToolCall)
    (result : ToolResult) :
    Likewise w (answerCall p a call result) (answerCall p b call result)
      (Runs w.mode w.mode') := by
  apply likewise_stamp.bind
  intro s s' _
  exact .pure (runs.goesOn (runs.push (essence_answering ..) _ _) rfl)

/-- Two handlings of calls that have come equally far. -/
structure SameHandling (w : Watching) (h h' : Handling) : Prop where
  runs : Runs w.mode w.mode' h.conversation h'.conversation
  gated : h.gated = h'.gated
  handoff : h.handoff = h'.handoff

/-- A completion is on both conversations before its calls are treated. -/
theorem SameHandling.spoken (runs : Runs w.mode w.mode' a b) (completion : Completion)
    (node : String) (s s' : Stamp) :
    SameHandling w
      ⟨a.push ((Message.assistant completion.content completion.toolCalls s).saidAt node) s.instant,
        [], none⟩
      ⟨b.push ((Message.assistant completion.content completion.toolCalls s').saidAt node)
        s'.instant, [], none⟩ := by
  refine ⟨runs.goesOn (runs.push ?_ _ _) rfl, rfl, rfl⟩
  rfl

theorem likewise_handleCall {h h' : Handling} (handled : SameHandling w h h') (p : TurnPlan)
    (call : ToolCall) :
    Likewise w (handleCall p h call) (handleCall p h' call) (SameHandling w) := by
  have answers (result : ToolResult) (route route' : Option String) (same : route = route') :
      Likewise w (do return ⟨← answerCall p h.conversation call result, h.gated, route⟩)
        (do return ⟨← answerCall p h'.conversation call result, h'.gated, route'⟩)
        (SameHandling w) :=
    (likewise_answerCall handled.runs p call result).bind fun _ _ runs =>
      .pure ⟨runs, handled.gated, same⟩
  apply (likewise_isToBeCancelled handled.runs.toMirrors).bind
  rintro cancelled _ rfl
  split
  · exact answers _ _ _ handled.handoff
  split
  · split
    · exact answers _ _ _ (congrArg (· <|> _) handled.handoff)
    · exact answers _ _ _ handled.handoff
  have named := handled.runs.id
  split
  · apply (likewise_publish (congrArg (Event.approvalRequested · call) named)).bind
    rintro _ _ -
    exact .pure ⟨handled.runs, congrArg (· ++ [call]) handled.gated, handled.handoff⟩
  · apply (likewise_invoke named call).bind
    rintro outcome _ rfl
    split
    · exact .pure handled
    · exact answers _ _ _ handled.handoff

theorem likewise_handleCalls {h h' : Handling} (handled : SameHandling w h h') (p : TurnPlan)
    (calls : List ToolCall) :
    Likewise w (handleCalls p h calls) (handleCalls p h' calls) (SameHandling w) := by
  induction calls generalizing h h' with
  | nil => exact .pure handled
  | cons call rest ih => exact (likewise_handleCall handled p call).bind fun _ _ later => ih later

theorem likewise_transcript (mirrors : Mirrors w.mode w.mode' a b) (systemPrompt : String) :
    Likewise w (transcript systemPrompt a) (transcript systemPrompt b) fun messages messages' =>
      messages.map Message.essence = messages'.map Message.essence := by
  unfold transcript
  split
  · exact .pure mirrors.messages
  · apply likewise_stamp.bind
    intro s s' _
    exact .pure (congrArg₂ List.cons rfl mirrors.messages)

theorem likewise_converse (runs : Runs w.mode w.mode' a b) (p : TurnPlan) (systemPrompt : String)
    (specs : List DeclaredTool) (most left calls : Nat) :
    Likewise w (converse p systemPrompt specs most left calls a)
      (converse p systemPrompt specs most left calls b) (Carries w) := by
  induction left generalizing calls a b with
  | zero =>
    apply (likewise_isToBeCancelled runs.toMirrors).bind
    rintro cancelled _ rfl
    split
    · exact .pure ⟨runs.goesOn runs.cancel rfl, rfl⟩
    · exact .pure ⟨runs, rfl⟩
  | succ left ih =>
    apply (likewise_isToBeCancelled runs.toMirrors).bind
    rintro cancelled _ rfl
    split
    · exact .pure ⟨runs.goesOn runs.cancel rfl, rfl⟩
    apply (likewise_transcript runs.toMirrors systemPrompt).bind
    intro messages messages' same
    apply (likewise_complete p.model same specs).bind
    rintro answer _ rfl
    cases answer with
    | error f => exact .pure ⟨runs, rfl⟩
    | ok completion =>
      apply likewise_stamp.bind
      intro s s' _
      have spoken := SameHandling.spoken (w := w) runs completion p.node s s'
      dsimp only
      split
      · exact .pure ⟨spoken.runs, rfl⟩
      apply (likewise_handleCalls spoken p completion.toolCalls).bind
      rintro ⟨a, gated, handoff⟩ ⟨b, _, _⟩ ⟨runs, rfl, rfl⟩
      dsimp only
      split
      · apply likewise_now.bind
        intro now now' _
        have waits := runs.goesOn (runs.withHandoff handoff) rfl
        exact .pure ⟨waits.pauseFor gated now now', rfl⟩
      · split
        · exact .pure ⟨runs, rfl⟩
        · exact ih runs _

theorem likewise_runTurn (runs : Runs w.mode w.mode' a b) (p : TurnPlan) :
    Likewise w (runTurn p a) (runTurn p b) (Carries w) := by
  have prompt : p.systemPrompt a = p.systemPrompt b := by
    unfold TurnPlan.systemPrompt
    rw [runs.templateValues]
  have cleared : Runs w.mode w.mode' { a with handoff := none } { b with handoff := none } :=
    runs.goesOn (runs.withHandoff none) rfl
  unfold runTurn
  rw [prompt, runs.handoff]
  dsimp only
  split
  · exact .pure ⟨cleared, rfl⟩
  · apply (likewise_turnTools cleared p).bind
    rintro ⟨a, found⟩ ⟨b, _⟩ ⟨runs, rfl⟩
    cases found with
    | error f => exact .pure ⟨runs, rfl⟩
    | ok specs =>
      apply likewise_settings.bind
      rintro s s' ⟨settings, -, -⟩
      rw [settings]
      exact likewise_converse runs p _ specs _ _ 0

/-! ## Nodes -/

theorem likewise_runProcess (runs : Runs w.mode w.mode' a b) (node : Node) (spec : ProcessSpec) :
    Likewise w (runProcess node spec a) (runProcess node spec b) (Carries w) := by
  have planned (settings : Settings) :
      TurnPlan.of settings node spec a = TurnPlan.of settings node spec b := by
    unfold TurnPlan.of
    rw [runs.startPrompt]
  apply likewise_settings.bind
  rintro s s' ⟨settings, -, -⟩
  rw [settings, planned]
  split
  · exact .pure ⟨runs, rfl⟩
  · apply (likewise_runTurn runs _).bind
    rintro ⟨a, outcome⟩ ⟨b, _⟩ ⟨runs, rfl⟩
    cases outcome with
    | error f => exact .pure ⟨runs, rfl⟩
    | ok outcome => exact .pure ⟨runs, rfl⟩

theorem likewise_runToolProvider (runs : Runs w.mode w.mode' a b) (node : Node)
    (spec : ProviderSpec) :
    Likewise w (runToolProvider node spec a) (runToolProvider node spec b) (Carries w) := by
  unfold runToolProvider
  split
  · exact .pure ⟨runs, rfl⟩
  · next provider _ =>
    apply (likewise_ask (.revision provider)).bind
    rintro revision _ rfl
    apply (likewise_fullListing _).bind
    rintro listed _ rfl
    split
    · exact .pure ⟨runs, rfl⟩
    · exact .pure ⟨runs, rfl⟩
    · apply likewise_now.bind
      intro now now' _
      exact .pure ⟨runs.goesOn (runs.keepListing _ _ _ now now') rfl, rfl⟩

theorem likewise_visit (runs : Runs w.mode w.mode' a b) (node : Node) :
    Likewise w (visit node a) (visit node b) (Carries w) := by
  unfold visit
  cases node.spec with
  | start spec =>
    apply likewise_now.bind
    intro now now' _
    rw [runs.templateValues]
    exact .pure ⟨runs.goesOn (runs.withStartPrompt _ now now') rfl, rfl⟩
  | process spec => exact likewise_runProcess runs node spec
  | toolProvider spec => exact likewise_runToolProvider runs node spec
  | finish =>
    apply likewise_now.bind
    intro now now' _
    exact .pure ⟨runs.finish now now', rfl⟩

/-! ## Steps -/

/-- Two outcomes of steps that are the same but for the watching. -/
structure Outcomes (w : Watching) (o o' : StepResult) : Prop where
  conversation : Mirrors w.mode w.mode' o.conversation o'.conversation
  action : o.action = o'.action
  next : o.next = o'.next

theorem likewise_failStep (mirrors : Mirrors w.mode w.mode' a b) (f : Failure) :
    Likewise w (failStep a f) (failStep b f) (Outcomes w) := by
  apply likewise_now.bind
  intro now now' _
  have failed := (mirrors.withNext none).fail (.ofFailure f) now now'
  apply (likewise_write failed).bind
  rintro _ _ -
  have told := congrArg (Event.stepFailed · (.ofFailure f)) failed.id
  exact (likewise_publish told).bind fun _ _ _ => .pure ⟨failed, rfl, rfl⟩

theorem likewise_pickUpCancel (mirrors : Mirrors w.mode w.mode' a b) :
    Likewise w (pickUpCancel a) (pickUpCancel b) (Mirrors w.mode w.mode') := by
  apply (likewise_takeCancel mirrors.id).bind
  rintro parked _ rfl
  have goes : (parked && !a.cancelled) = (parked && !b.cancelled) := by rw [mirrors.cancelled]
  rw [goes]
  split
  · apply likewise_now.bind
    intro now now' _
    have cancelled := mirrors.cancel.touch now now'
    exact (likewise_write cancelled).bind fun _ _ _ => .pure cancelled
  · exact .pure mirrors

theorem likewise_concluding (mirrors : Mirrors w.mode w.mode' a b) (node : Node) (run : Visit) :
    Likewise w (concluding a node run) (concluding b node run) (Outcomes w) := by
  apply (likewise_write mirrors).bind
  rintro _ _ ⟨rfl, rfl⟩
  have told := congrArg (Event.stepCompleted · node.id run.action) mirrors.id
  exact (likewise_publish told).bind fun _ _ _ => .pure ⟨mirrors, rfl, rfl⟩

/-- A step comes to its end in one way, whether or not it is recorded. -/
theorem likewise_completeStep (mirrors : Mirrors w.mode w.mode' a b) (node : Node) (run : Visit)
    (before before' : Option Json) :
    Likewise w (completeStep node a before run) (completeStep node b before' run)
      (Outcomes w) := by
  have concluded (noted noted' now now' : Instant) :
      Likewise w (concluding (a.conclude node run before noted now) node run)
        (concluding (b.conclude node run before' noted' now') node run) (Outcomes w) :=
    likewise_concluding
      (((mirrors.withNext (node.next run.action)).noteRun node run ..).touch now now') node run
  unfold completeStep
  cases before with
  | none =>
    cases before' with
    | none => exact likewise_now.bind fun now now' _ => concluded now now' now now'
    | some before' =>
      exact likewise_now_right fun noted' =>
        likewise_now.bind fun now now' _ => concluded now noted' now now'
  | some before =>
    cases before' with
    | none =>
      exact likewise_now_left fun noted =>
        likewise_now.bind fun now now' _ => concluded noted now' now now'
    | some before' =>
      exact likewise_now.bind fun noted noted' _ =>
        likewise_now.bind fun now now' _ => concluded noted noted' now now'

theorem likewise_stepNode (runs : Runs w.mode w.mode' a.leavePause b.leavePause) (node : Node) :
    Likewise w (stepNode node a) (stepNode node b) (Outcomes w) := by
  apply (likewise_publish (congrArg (Event.stepStarted · node.id) runs.id)).bind
  rintro _ _ -
  apply (likewise_visit runs node).bind
  rintro ⟨a', result⟩ ⟨b', _⟩ ⟨runs', rfl⟩
  apply (likewise_takeCancel runs'.id).bind
  rintro cancel _ rfl
  have arrived := runs'.arrive node cancel
  cases result with
  | ok run => exact likewise_completeStep arrived node run _ _
  | error f =>
    have gaveUp (before before' : Option Json) (noted noted' : Instant) :
        Likewise w (failStep ((a'.arrive node cancel).noteFailure node before f noted) f)
          (failStep ((b'.arrive node cancel).noteFailure node before' f noted') f) (Outcomes w) :=
      likewise_failStep (arrived.noteFailure node before before' f noted noted') f
    generalize (if a.leavePause.debugMode then some a.leavePause.snapshot else none) = before
    generalize (if b.leavePause.debugMode then some b.leavePause.snapshot else none) = before'
    cases before with
    | none =>
      cases before' with
      | none => exact gaveUp none none default default
      | some before' => exact likewise_now_right fun noted' => gaveUp none before' default noted'
    | some before =>
      cases before' with
      | none => exact likewise_now_left fun noted => gaveUp before none noted default
      | some before' =>
        exact likewise_now.bind fun noted noted' _ => gaveUp before before' noted noted'

theorem likewise_advance (mirrors : Mirrors w.mode w.mode' a b) :
    Likewise w (advance a) (advance b) (Outcomes w) := by
  apply (likewise_pickUpCancel mirrors).bind
  intro a b mirrors
  by_cases waits : a.status = .awaitingApproval
  · rw [if_pos waits, if_pos ((mirrors.status_eq_iff (by simp)).1 waits)]
    exact .pure ⟨mirrors, rfl, mirrors.next⟩
  rw [if_neg waits, if_neg (mt (mirrors.status_eq_iff (by simp)).2 waits)]
  by_cases ended : a.status = .completed
  · rw [if_pos ended, if_pos ((mirrors.status_eq_iff (by simp)).1 ended)]
    exact .pure ⟨mirrors, rfl, rfl⟩
  rw [if_neg ended, if_neg (mt (mirrors.status_eq_iff (by simp)).2 ended), mirrors.cancelled]
  split
  · exact .pure ⟨mirrors, rfl, rfl⟩
  apply (likewise_graph mirrors.flow).bind
  rintro found _ rfl
  split
  · exact likewise_failStep mirrors _
  · rw [mirrors.next, mirrors.current]
    exact likewise_stepNode (mirrors.leavePause ⟨waits, ended⟩) _

theorem likewise_step : Likewise w (step w.id) (step w.id) (Matches (Outcomes w)) := by
  refine likewise_claiming (likewise_load.bind fun loaded loaded' matches_ => ?_)
  cases matches_ with
  | error f => exact .pure (.error f)
  | ok mirrors => exact (likewise_advance mirrors).bind fun o o' outcomes => .pure (.ok outcomes)

/-! ## Other operations -/

theorem likewise_post (text : String) :
    Likewise w (post w.id text) (post w.id text) (Matches (Mirrors w.mode w.mode')) := by
  refine likewise_claiming (likewise_load.bind fun loaded loaded' matches_ => ?_)
  cases matches_ with
  | error f => exact .pure (.error f)
  | @ok a b mirrors =>
    dsimp only
    by_cases waits : a.status = .awaitingApproval
    · rw [if_pos waits, if_pos ((mirrors.status_eq_iff (by simp)).1 waits)]
      exact .pure (.error _)
    rw [if_neg waits, if_neg (mt (mirrors.status_eq_iff (by simp)).2 waits), mirrors.cancelled]
    split
    · exact .pure (.error _)
    apply likewise_stamp.bind
    intro s s' _
    have same : (Message.user text s).essence = (Message.user text s').essence := rfl
    have told := mirrors.push same s.instant s'.instant
    rw [told.needsRewind]
    split
    · apply (likewise_graph told.flow).bind
      rintro found _ rfl
      split
      · exact .pure (.error _)
      · exact likewise_save (told.rewind _).reopen
    · exact likewise_save told.reopen

theorem likewise_cancel :
    Likewise w (cancel w.id) (cancel w.id) (Matches fun _ _ => True) := by
  apply (likewise_tryClaim w.id).bind
  rintro free _ rfl
  split
  · apply likewise_load.bind
    intro loaded loaded' matches_
    cases matches_ with
    | error f => exact (likewise_release w.id).bind fun _ _ _ => .pure (.error f)
    | ok mirrors =>
      apply likewise_now.bind
      intro now now' _
      apply (likewise_write (mirrors.cancel.touch now now')).bind
      rintro _ _ ⟨rfl, rfl⟩
      exact (likewise_release w.id).bind fun _ _ _ => .pure (.ok trivial)
  · exact (likewise_parkCancel w.id).bind fun _ _ _ => .pure (.ok trivial)

theorem likewise_decide (mirrors : Mirrors w.mode w.mode' a b) (call : ToolCall)
    (decision : Decision) : Likewise w (decide a call decision) (decide b call decision) Eq := by
  cases decision with
  | approve =>
    apply (likewise_invoke mirrors.id call).bind
    rintro outcome _ rfl
    split
    · exact .pure rfl
    · exact .pure rfl
  | reject reason =>
    apply likewise_settings.bind
    rintro s s' ⟨settings, -, -⟩
    rw [settings]
    exact .pure rfl

theorem likewise_telling (mirrors : Mirrors w.mode w.mode' a b) (call : String)
    (approved : Bool) :
    Likewise w (telling a call approved) (telling b call approved)
      (Matches (Mirrors w.mode w.mode')) := by
  apply (likewise_write mirrors).bind
  rintro _ _ ⟨rfl, rfl⟩
  have told := congrArg (Event.approvalResolved · call approved) mirrors.id
  exact (likewise_publish told).bind fun _ _ _ => .pure (.ok mirrors)

theorem likewise_resolve (call : String) (decision : Decision) :
    Likewise w (resolve w.id call decision) (resolve w.id call decision)
      (Matches (Mirrors w.mode w.mode')) := by
  refine likewise_claiming (likewise_load.bind fun loaded loaded' matches_ => ?_)
  cases matches_ with
  | error f => exact .pure (.error f)
  | @ok a b mirrors =>
    apply likewise_now.bind
    intro now now' _
    dsimp only
    obtain ⟨none, none'⟩ | ⟨taken, rest, rest', found, found', mirrors⟩ :=
      mirrors.takeCall call now now'
    · rw [none, none']
      exact .pure (.error _)
    · rw [found, found']
      apply (likewise_decide mirrors taken decision).bind
      rintro result _ rfl
      apply likewise_stamp.bind
      intro s s' _
      have answered (m m' : Message) (same : m.essence = m'.essence) :
          Likewise w (telling (rest.push m s.instant) taken.id (decision = .approve))
            (telling (rest'.push m' s'.instant) taken.id (decision = .approve))
            (Matches (Mirrors w.mode w.mode')) :=
        likewise_telling (mirrors.push same s.instant s'.instant) _ _
      rw [mirrors.next, mirrors.current]
      split
      · exact answered _ _ rfl
      · exact answered _ _ rfl

/-- Two results of operations that are the same but for the watching. -/
abbrev SameReply (x y : Except Failure Operation.Outcome) : Prop :=
  x.map Operation.Outcome.essence = y.map Operation.Outcome.essence

theorem sameReply_of_matches {α β : Type} {rel : α → β → Prop} {f : α → Operation.Outcome}
    {g : β → Operation.Outcome} {x : Except Failure α} {y : Except Failure β}
    (matches_ : Matches rel x y) (same : ∀ a b, rel a b → (f a).essence = (g b).essence) :
    SameReply (x.map f) (y.map g) := by
  cases matches_ with
  | error f => rfl
  | ok related => exact congrArg Except.ok (same _ _ related)

theorem likewise_perform {op : Operation} (drives : op.Drives w.id) :
    Likewise w op.perform op.perform SameReply := by
  have seen (c c' : Conversation) (mirrors : Mirrors w.mode w.mode' c c') :
      (Operation.Outcome.conversation c).essence = (Operation.Outcome.conversation c').essence :=
    congrArg Operation.Outcome.conversation mirrors.essence
  cases drives with
  | step =>
    refine likewise_step.bind fun _ _ matches_ => .pure (sameReply_of_matches matches_ ?_)
    rintro ⟨c, action, next⟩ ⟨c', _, _⟩ ⟨mirrors, rfl, rfl⟩
    exact congrArg (fun c => Operation.Outcome.step ⟨c, action, next⟩) mirrors.essence
  | post text =>
    exact (likewise_post text).bind fun _ _ matches_ => .pure (sameReply_of_matches matches_ seen)
  | resolve call decision =>
    exact (likewise_resolve call decision).bind fun _ _ matches_ =>
      .pure (sameReply_of_matches matches_ seen)
  | cancel =>
    exact likewise_cancel.bind fun _ _ matches_ =>
      .pure (sameReply_of_matches matches_ fun _ _ _ => rfl)

end

end Engine

end DialogueEngine
