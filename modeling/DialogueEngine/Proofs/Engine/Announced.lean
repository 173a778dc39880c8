import DialogueEngine.Proofs.Engine.Announcing
import DialogueEngine.Proofs.Engine.Atomicity

/-!
What is heard of steps. A step that runs no node is not heard of, and one whose flow is missing only
by its failure. Where a node is run this is told first, then what the node does, and at last that
the step is completed or that it has failed; it is completed exactly if what the node has made of
the conversation was written.
-/

namespace DialogueEngine

open Conversation (Pauses Ready Turned)

/-- No node is run for a conversation: approval is awaited, it is completed, or it is cancelled or
is to be. -/
def Conversation.Halts (c : Conversation) (s : Situation) : Prop :=
  c.status = .awaitingApproval ∨ c.status = .completed ∨ c.cancelled = true ∨
    c.id ∈ s.cancelRequests

/-- What the run of a node for a conversation comes to, if it does `doings` and this is the last
that is heard of it. -/
structure StepResult.Concludes (o : StepResult) (node : Node) (c : Conversation)
    (doings : List Doing) (last : Event) (more : List Exchange) (s : Situation) : Prop where
  id : o.conversation.id = c.id
  completes : last = .stepCompleted c.id node.id o.action ↔ o.action ≠ .error
  fails : (∃ info, last = .stepFailed c.id info) ↔ o.action = .error
  stored : o.action ≠ .error ↔ s.store.Keeps o.conversation ∧ o.conversation.status ≠ .error
  /-- Tools are run as is told, each by the provider that its name says. -/
  runs : Exchange.toolRuns more = doings.flatMap Doing.runs
  messages : o.conversation.messages = c.messages ++ doings.flatMap (Doing.messages node.id)
  /-- What is stored as pending is what was requested, or what was pending before. -/
  requests : o.action ≠ .error → doings.flatMap Doing.requests = o.conversation.pending ∨
    doings.flatMap Doing.requests = [] ∧ o.conversation.pending = c.pending
  requested : c.Pauses → o.action ≠ .error →
    doings.flatMap Doing.requests = o.conversation.pending
  pauses : c.Pauses → o.conversation.Pauses

/-- What is heard of a step with a conversation that begins in a situation, and what is exchanged
for it. -/
inductive Announced (s : Situation) (c : Conversation) :
    List Event → List Exchange → StepResult → Situation → Prop
  | rests {o : StepResult} {s' : Situation} (halts : c.Halts s) (stops : o.continues = false) :
      Announced s c [] [] o s'
  | lost {o : StepResult} {s' : Situation} (goesOn : ¬ c.Halts s)
      (missing : s.flows.get? c.flow = none) (info : FailureInfo) (fails : o.action = .error) :
      Announced s c [.stepFailed c.id info] [] o s'
  | ran {g : Graph} {node : Node} {doings : List Doing} {last : Event} {more : List Exchange}
      {o : StepResult} {s' : Situation} (goesOn : ¬ c.Halts s)
      (found : s.flows.get? c.flow = some g) (chosen : node = g.nodeAt (c.next <|> c.current))
      (concludes : o.Concludes node c doings last more s') :
      Announced s c (.stepStarted c.id node.id :: doings.flatMap (Doing.events c.id) ++ [last])
        more o s'

/-- So many steps one after the other, each of which goes on where the one before it has stopped,
with what is heard of them and exchanged for them. -/
inductive Strides : Nat → Situation → Conversation → List Event → List Exchange → StepResult →
    Situation → Prop
  | one {s s' : Situation} {c : Conversation} {told : List Event} {more : List Exchange}
      {o : StepResult} (announced : Announced s c told more o s') : Strides 1 s c told more o s'
  | more {n : Nat} {s s' s'' : Situation} {c : Conversation} {told told' : List Event}
      {more more' : List Exchange} {o o' : StepResult}
      (strides : Strides n s c told more o s') (goesOn : o.continues = true)
      (pauses : c.Pauses → o.conversation.Pauses)
      (announced : Announced s' o.conversation told' more' o' s'') :
      Strides (n + 1) s c (told ++ told') (more ++ more') o' s''

/-- Whatever a step makes of a conversation that goes on has pending calls only while it waits for
approval, if the conversation had. -/
theorem Announced.pauses {s s' : Situation} {c : Conversation} {told : List Event}
    {more : List Exchange} {o : StepResult} (announced : Announced s c told more o s')
    (goesOn : o.continues = true) (pauses : c.Pauses) : o.conversation.Pauses := by
  cases announced with
  | rests _ stops => simp [stops] at goesOn
  | lost _ _ _ fails => simp [StepResult.continues, fails] at goesOn
  | ran _ _ _ concludes => exact concludes.pauses pauses

theorem Strides.pauses {n : Nat} {s s' : Situation} {c : Conversation} {told : List Event}
    {more : List Exchange} {o : StepResult} (strides : Strides n s c told more o s')
    (goesOn : o.continues = true) (pauses : c.Pauses) : o.conversation.Pauses := by
  cases strides with
  | one announced => exact announced.pauses goesOn pauses
  | more _ _ kept announced => exact announced.pauses goesOn (kept pauses)

namespace StepResult.Concludes

variable {node : Node} {c d e : Conversation} {doings : List Doing} {more : List Exchange}
  {s : Situation} {action : Action} {next : Option String}

/-- A turn that pauses waits for what it has requested. -/
theorem requests_of_turned (turned : Turned node.id c.leavePause doings d) :
    doings.flatMap Doing.requests = d.pending ∨
      doings.flatMap Doing.requests = [] ∧ d.pending = c.pending := by
  rcases turned.ends with ⟨-, requested, -⟩ | ⟨-, same, none⟩
  · exact .inl requested.symm
  · exact .inr ⟨none, same.trans c.leavePause_pending⟩

/-- What the node has made of a conversation was written. -/
theorem completed (turned : Turned node.id c.leavePause doings d) (ready : c.Ready)
    (runs : Exchange.toolRuns more = doings.flatMap Doing.runs) (spoken : action ≠ .error)
    (messages : e.messages = d.messages) (pending : e.pending = d.pending)
    (own : e.id = c.id)
    (status : e.status = d.status ∨ d.status = .running ∧ e.status = .pausedDebug)
    (kept : s.store.Keeps e) :
    StepResult.Concludes ⟨e, action, next⟩ node c doings (.stepCompleted c.id node.id action) more
      s := by
  have running := ready.leavePause_status
  have waits : d.status = .awaitingApproval ∧ d.pending ≠ [] ∨
      (d.status = .running ∨ d.status = .completed) ∧ d.pending = c.pending := by
    rcases turned.ends with ⟨awaiting, -, some⟩ | ⟨goes, same, -⟩
    · exact .inl ⟨awaiting, some⟩
    · exact .inr ⟨running ▸ goes, same.trans c.leavePause_pending⟩
  have sound : e.status ≠ .error := by
    rcases status with same | ⟨-, paused⟩
    · rw [same]
      rcases waits with ⟨awaiting, -⟩ | ⟨going | completed, -⟩ <;> simp [*]
    · simp [paused]
  refine ⟨own, ⟨fun _ => spoken, fun _ => rfl⟩, ⟨fun ⟨_, same⟩ => (by cases same),
    fun same => absurd same spoken⟩, ⟨fun _ => ⟨kept, sound⟩, fun _ => spoken⟩, runs, ?_, ?_, ?_,
    ?_⟩
  · rw [messages, turned.messages, Conversation.leavePause_messages]
  · rw [pending]
    exact fun _ => requests_of_turned turned
  · intro pauses _
    rw [pending]
    rcases requests_of_turned turned with requested | ⟨none, same⟩
    · exact requested
    · rw [none, same, pauses.pending_eq_nil ready.not_awaiting]
  · intro pauses
    have none := pauses.pending_eq_nil ready.not_awaiting
    unfold Conversation.Pauses
    rw [pending]
    rcases waits with ⟨awaiting, some⟩ | ⟨goes, same⟩
    · have same : e.status = d.status := status.resolve_right fun ⟨other, _⟩ => by
        rw [awaiting] at other
        cases other
      exact ⟨fun _ => same.trans awaiting, fun _ => some⟩
    · refine ⟨fun some => absurd (same.trans none) some, fun awaiting => ?_⟩
      rcases status with same' | ⟨-, paused⟩
      · rw [same'] at awaiting
        rcases goes with going | completed <;> simp_all
      · rw [paused] at awaiting
        cases awaiting

/-- The step is given up: a node has failed, or what it has made of the conversation could not be
written. -/
theorem failed (turned : Turned node.id c.leavePause doings d)
    (runs : Exchange.toolRuns more = doings.flatMap Doing.runs)
    (messages : e.messages = d.messages) (own : e.id = c.id) (f : Failure) (now : Instant) :
    StepResult.Concludes ⟨e.giveUp f now, .error, none⟩ node c doings
      (.stepFailed c.id (.ofFailure f)) more s := by
  refine ⟨own, ⟨fun same => (by cases same), fun spoken => absurd rfl spoken⟩,
    ⟨fun _ => rfl, fun _ => ⟨_, rfl⟩⟩,
    ⟨fun spoken => absurd rfl spoken, fun ⟨_, sound⟩ => absurd rfl sound⟩, runs, ?_,
    fun spoken => absurd rfl spoken, fun _ spoken => absurd rfl spoken,
    fun _ => .of_free rfl nofun⟩
  change e.messages = _
  rw [messages, turned.messages, Conversation.leavePause_messages]

end StepResult.Concludes

namespace Engine

variable {α : Type} {id : String} {s s' : Situation} {c : Conversation} {node : Node}

theorem reports_now : Reports id now s fun told more _ s' =>
    told = [] ∧ more = [] ∧ s'.store = s.store :=
  .of_ends ⟨rfl, rfl⟩

theorem reports_write (c : Conversation) : Reports id (write c) s fun told more written s' =>
    told = [] ∧ more = [] ∧ written = (s.store.put c).1 ∧ s' = s.saving c :=
  .of_ends ⟨rfl, rfl, rfl⟩

/-- What gives a step up is told, whether or not it could be written. -/
theorem reports_failStep (named : c.id = id) (f : Failure) : Reports id (failStep c f) s
    fun told more o _ => told = [.stepFailed id (.ofFailure f)] ∧ more = [] ∧
      ∃ now, o = ⟨c.giveUp f now, .error, none⟩ := by
  subst named
  apply reports_now.bind
  rintro _ _ now s₁ ⟨rfl, rfl, -⟩
  apply (reports_write _).bind
  rintro _ _ _ s₂ ⟨rfl, rfl, -⟩
  apply (reports_publish rfl).bind
  rintro _ _ _ s₃ ⟨rfl, rfl, -⟩
  exact .pure ⟨rfl, rfl, now, rfl⟩

/-- What is heard at the end of a step whose node was run without a failure. -/
inductive Closing (node : Node) (c : Conversation) (run : Visit) :
    List Event → StepResult → Situation → Prop
  | completed {s : Situation} (kept : s.store.Keeps c) :
      Closing node c run [.stepCompleted c.id node.id run.action]
        ⟨c, run.action, node.next run.action⟩ s
  | failed {s : Situation} (f : Failure) (now : Instant) :
      Closing node c run [.stepFailed c.id (.ofFailure f)] ⟨c.giveUp f now, .error, none⟩ s

theorem reports_concluding (named : c.id = id) (node : Node) (run : Visit) :
    Reports id (concluding c node run) s fun told more o s' =>
      more = [] ∧ Closing node c run told o s' := by
  subst named
  apply (reports_write c).bind
  rintro _ _ written _ ⟨rfl, rfl, put, rfl⟩
  cases written with
  | error f =>
    apply (reports_failStep rfl f).mono
    rintro _ _ _ _ ⟨rfl, rfl, now, rfl⟩
    exact ⟨rfl, .failed f now⟩
  | ok _ =>
    have kept : (s.saving c).store.Keeps c := Store.keeps_of_put put.symm
    apply (reports_publish rfl).bind
    rintro _ _ _ s₂ ⟨rfl, rfl, same⟩
    exact .pure ⟨rfl, .completed (by rwa [same])⟩

theorem reports_completeStep (named : c.id = id) (node : Node) (before : Option Json)
    (run : Visit) : Reports id (completeStep node c before run) s fun told more o s' =>
      more = [] ∧
        ∃ noted now, Closing node (c.conclude node run before noted now) run told o s' := by
  have concludes (noted now : Instant) (s₁ : Situation) :
      Reports id (concluding (c.conclude node run before noted now) node run) s₁
        fun told more o s' => more = [] ∧
          ∃ noted now, Closing node (c.conclude node run before noted now) run told o s' := by
    apply (reports_concluding (by rw [Conversation.conclude_id, named]) node run).mono
    rintro _ _ o s' ⟨rfl, tells⟩
    exact ⟨rfl, noted, now, tells⟩
  unfold completeStep
  cases before with
  | none =>
    dsimp only
    rw [pure_bind]
    apply reports_now.bind
    rintro _ _ now s₁ ⟨rfl, rfl, -⟩
    exact concludes now now s₁
  | some before =>
    dsimp only
    apply reports_now.bind
    rintro _ _ noted s₁ ⟨rfl, rfl, -⟩
    rw [pure_bind]
    apply reports_now.bind
    rintro _ _ now s₂ ⟨rfl, rfl, -⟩
    exact concludes noted now s₂

/-- Where a node is run, what is heard begins with that and ends with what came of it. -/
theorem reports_stepNode (named : c.id = id) (ready : c.Ready) (node : Node) :
    Reports id (stepNode node c) s fun told more o s' => ∃ doings last,
      told = .stepStarted id node.id :: doings.flatMap (Doing.events id) ++ [last] ∧
        o.Concludes node c doings last more s' := by
  subst named
  unfold stepNode
  dsimp only
  generalize (if c.leavePause.debugMode = true then some c.leavePause.snapshot else none) = before
  have about : (Event.stepStarted c.leavePause.id node.id).about? = some c.id :=
    congrArg some c.leavePause_id
  apply (reports_publish about).bind
  rintro _ _ _ s₁ ⟨rfl, rfl, -⟩
  apply ((does_visit c.leavePause_id node) s₁).bind
  rintro _ more ⟨d, result⟩ s₂ ⟨doings, rfl, runs, turned, sound⟩
  have own : d.id = c.id := turned.id.trans c.leavePause_id
  have takes : (takeCancel d.id s₂).Ends fun _ s₃ => s₃.published = s₂.published ∧ True :=
    ⟨rfl, trivial⟩
  apply (Reports.of_ends takes).bind
  rintro _ _ cancel s₃ ⟨rfl, rfl, -⟩
  rw [c.leavePause_id]
  have arrived : (d.arrive node cancel).id = c.id := by rw [Conversation.arrive_id, own]
  have runs' : Exchange.toolRuns ([] ++ (more ++ ([] ++ []))) = doings.flatMap Doing.runs := by
    simpa using runs
  cases result with
  | ok run =>
    apply (reports_completeStep arrived node before run).mono
    rintro told _ o s' ⟨rfl, noted, now, tells⟩
    have messages : ((d.arrive node cancel).conclude node run before noted now).messages =
        d.messages := by simp
    have whole : ((d.arrive node cancel).conclude node run before noted now).id = c.id := by
      rw [Conversation.conclude_id, arrived]
    cases tells with
    | completed kept =>
      refine ⟨doings, _, by rw [whole]; rfl, ?_⟩
      refine .completed turned ready runs' sound messages (by simp) whole ?_ kept
      rw [Conversation.conclude_status, Conversation.arrive_status]
      split
      · next paused => exact .inr ⟨paused.2, rfl⟩
      · exact .inl rfl
    | failed f later =>
      exact ⟨doings, _, by rw [whole]; rfl, .failed turned runs' messages whole f later⟩
  | error f =>
    have fails (noted : Instant) (s₃ : Situation) :
        Reports c.id (failStep ((d.arrive node cancel).noteFailure node before f noted) f) s₃
          fun told' more' o s' => ∃ doings' last,
            [.stepStarted c.id node.id] ++ (doings.flatMap (Doing.events c.id) ++ ([] ++ told')) =
              .stepStarted c.id node.id :: doings'.flatMap (Doing.events c.id) ++ [last] ∧
              o.Concludes node c doings' last ([] ++ (more ++ ([] ++ more'))) s' := by
      have whole : ((d.arrive node cancel).noteFailure node before f noted).id = c.id := by
        rw [Conversation.noteFailure_id, arrived]
      apply (reports_failStep whole f).mono
      rintro _ _ _ s' ⟨rfl, rfl, now, rfl⟩
      exact ⟨doings, _, rfl, .failed turned runs' (by simp) whole f now⟩
    cases before with
    | none =>
      dsimp only
      rw [pure_bind]
      exact fails default s₃
    | some before =>
      dsimp only
      apply reports_now.bind
      rintro _ _ noted s₄ ⟨rfl, rfl, -⟩
      rw [pure_bind]
      exact fails noted s₄

/-! ## Taking steps -/

/-- What is asked for nobody and tells nothing. -/
abbrev Silent (x : Engine α) : Prop := ∀ s, (x s).Ends fun _ s' => s'.published = s.published

namespace Silent

variable {β : Type}

theorem pure (a : α) : Silent (Pure.pure a : Engine α) := fun _ => rfl

theorem bind {x : Engine α} {f : α → Engine β} (first : Silent x) (later : ∀ a, Silent (f a)) :
    Silent (x >>= f) := by
  intro s
  apply Activity.meets_bind (first s)
  intro a s' same
  exact (later a s').mono (fun _ asked => asked) fun _ _ more => more.trans same

/-- What is said of its end besides. -/
theorem reports {x : Engine α} {mid : α → Situation → Prop} (silent : Silent x)
    (ends : (x s).Ends mid) :
    Reports id x s fun told more a s' => told = [] ∧ more = [] ∧ mid a s' :=
  .of_ends ((silent s).and_also ends.meets)

theorem quiet {x : Engine α} (silent : Silent x) :
    Reports id x s fun told more _ _ => told = [] ∧ more = [] := by
  have ends : (x s).Ends fun _ s' => s'.published = s.published ∧ True :=
    (silent s).mono (fun _ asked => asked) fun _ _ same => ⟨same, trivial⟩
  apply (Reports.of_ends ends).mono
  rintro _ _ _ _ ⟨rfl, rfl, -⟩
  exact ⟨rfl, rfl⟩

end Silent

theorem Looks.silent {x : Engine α} (looks : Looks x) : Silent x :=
  fun s => (looks s).mono (fun _ asked => asked) fun _ _ holds => holds.2

theorem silent_write (c : Conversation) : Silent (write c) := fun _ => rfl

/-- A request that was parked is picked up, or there is none that is of use. -/
theorem reports_pickUpCancel (c : Conversation) : Reports id (pickUpCancel c) s
    fun told more c' s' => told = [] ∧ more = [] ∧ s'.flows = s.flows ∧
      (c' = c ∧ (c.id ∈ s.cancelRequests → c.cancelled = true) ∨
        c.id ∈ s.cancelRequests ∧ c'.cancelled = true ∧ c'.id = c.id) := by
  refine .of_ends ?_
  apply Activity.meets_bind (takeCancel_ends c.id s)
  rintro cancel _ ⟨rfl, requested⟩
  split
  · next picks =>
    have found : cancel = true ∧ c.cancelled = false := by simpa using picks
    exact ⟨rfl, rfl, .inr ⟨requested.1 found.1, rfl, rfl⟩⟩
  · next keeps =>
    refine ⟨rfl, rfl, .inl ⟨rfl, fun parked => ?_⟩⟩
    simpa [requested.2 parked] using keeps

/-- What is heard of a step. -/
theorem reports_advance (named : c.id = id) : Reports id (advance c) s fun told more o s' =>
    Announced s c told more o s' ∧ o.conversation.id = id := by
  subst named
  apply (reports_pickUpCancel c).bind
  rintro _ _ c₁ s₁ ⟨rfl, rfl, flows, picked⟩
  have rests {o : StepResult} {s₁ : Situation} (own : o.conversation.id = c₁.id)
      (same : c₁.id = c.id) (halts : c.Halts s) (stops : o.continues = false) :
      Reports c.id (pure o : Engine StepResult) s₁ fun told more o s' =>
        Announced s c ([] ++ told) ([] ++ more) o s' ∧ o.conversation.id = c.id :=
    .pure ⟨.rests halts stops, own.trans same⟩
  rcases picked with ⟨rfl, unparked⟩ | ⟨parked, cancelled, own⟩
  · split
    · next awaiting =>
      exact rests rfl rfl (.inl awaiting) (by simp [StepResult.continues, awaiting])
    next unpaused =>
    split
    · next completed => exact rests rfl rfl (.inr (.inl completed)) (Bool.and_false _)
    next unfinished =>
    split
    · next cancelled =>
      exact rests rfl rfl (.inr (.inr (.inl cancelled))) (Bool.and_false _)
    next going =>
    have goesOn : ¬ c₁.Halts s := by
      rintro (awaiting | completed | cancelled | parked)
      · exact unpaused awaiting
      · exact unfinished completed
      · exact going cancelled
      · exact going (unparked parked)
    have finds : (graph c₁.flow s₁).Ends fun found _ =>
        (∃ g, found = .ok g ∧ s.flows.get? c₁.flow = some g) ∨
          (∃ f, found = .error f) ∧ s.flows.get? c₁.flow = none := by
      have looks : (situation s₁).Ends fun seen _ => seen = s₁ := rfl
      apply Activity.meets_bind looks
      rintro seen s₂ rfl
      rw [← flows]
      cases kept : seen.flows.get? c₁.flow with
      | none => exact .inr ⟨⟨_, rfl⟩, rfl⟩
      | some g => exact .inl ⟨g, rfl, rfl⟩
    apply ((looks_graph c₁.flow).silent.reports finds).bind
    rintro _ _ found s₂ ⟨rfl, rfl, ⟨g, rfl, known⟩ | ⟨⟨f, rfl⟩, missing⟩⟩
    · apply (reports_stepNode rfl ⟨unpaused, unfinished, by simpa using going⟩ _).mono
      rintro _ more o s' ⟨doings, last, rfl, concludes⟩
      exact ⟨.ran goesOn known rfl concludes, concludes.id⟩
    · apply (reports_failStep rfl f).mono
      rintro _ _ _ s' ⟨rfl, rfl, now, rfl⟩
      exact ⟨.lost goesOn missing _ rfl, rfl⟩
  · -- A request to cancel was parked, so no node is run wherever the conversation stands.
    have halts : c.Halts s := .inr (.inr (.inr parked))
    have stops (action : Action) (next : Option String) :
        StepResult.continues ⟨c₁, action, next⟩ = false := by
      simp [StepResult.continues, cancelled]
    split
    · exact rests rfl own halts (stops _ _)
    split
    · exact rests rfl own halts (stops _ _)
    · exact rests rfl own halts (stops _ _)

/-- What is heard of a run that goes on after some steps. -/
theorem reports_keepGoing (budget : Nat) {n₀ : Nat} {s₀ s : Situation} {c : Conversation}
    {told₀ : List Event} {more₀ : List Exchange} {o : StepResult}
    (strides : Strides n₀ s₀ c told₀ more₀ o s) (named : o.conversation.id = id) :
    Reports id (keepGoing budget o) s fun told more o' s' => ∃ n, n ≤ n₀ + budget ∧
      Strides n s₀ c (told₀ ++ told) (more₀ ++ more) o' s' := by
  induction budget generalizing n₀ told₀ more₀ o s with
  | zero => exact .pure ⟨n₀, Nat.le_refl _, by simpa using strides⟩
  | succ budget ih =>
    unfold keepGoing
    split
    · next goesOn =>
      apply (reports_advance named).bind
      rintro told more o' s' ⟨announced, named'⟩
      apply (ih (.more strides goesOn (strides.pauses goesOn) announced) named').mono
      rintro told' more' o'' s'' ⟨n, most, strides'⟩
      exact ⟨n, by omega, by simpa using strides'⟩
    · exact .pure ⟨n₀, by omega, by simpa using strides⟩

end Engine

/-- Only the flows and the requests of a situation decide what is heard of a step in it. -/
theorem Announced.of_same {s s₁ s' : Situation} {c : Conversation} {told : List Event}
    {more : List Exchange} {o : StepResult} (announced : Announced s₁ c told more o s')
    (flows : s₁.flows = s.flows) (requests : s₁.cancelRequests = s.cancelRequests) :
    Announced s c told more o s' := by
  have halts : c.Halts s₁ ↔ c.Halts s := by
    unfold Conversation.Halts
    rw [requests]
  cases announced with
  | rests rest stops => exact .rests (halts.1 rest) stops
  | lost goesOn missing info fails => exact .lost (mt halts.2 goesOn) (flows ▸ missing) info fails
  | ran goesOn found chosen concludes =>
    exact .ran (mt halts.2 goesOn) (flows ▸ found) chosen concludes

theorem Strides.of_same {n : Nat} {s s₁ s' : Situation} {c : Conversation} {told : List Event}
    {more : List Exchange} {o : StepResult} (strides : Strides n s₁ c told more o s')
    (flows : s₁.flows = s.flows) (requests : s₁.cancelRequests = s.cancelRequests) :
    Strides n s c told more o s' := by
  induction strides with
  | one announced => exact .one (announced.of_same flows requests)
  | more _ goesOn pauses announced ih => exact .more (ih flows requests) goesOn pauses announced

namespace Engine

variable {α : Type} {id : String} {s s' : Situation}

/-! ## Operations -/

/-- A conversation that is free is claimed, worked on and released. -/
theorem reports_holding {body : Engine α} {refused : α}
    {post : List Event → List Exchange → α → Situation → Prop} (free : id ∉ s.claimed)
    (works : Reports id body { s with claimed := id :: s.claimed }
      fun told more a s' => post told more a (releasing id s')) :
    Reports id (do
      if ← tryClaim id then
        let a ← body
        release id
        return a
      else return refused) s post := by
  have claims : (tryClaim id s).Ends fun free s' => s'.published = s.published ∧
      free = true ∧ s' = { s with claimed := id :: s.claimed } := by
    rw [tryClaim_free free]
    exact ⟨rfl, rfl, rfl⟩
  apply (Reports.of_ends claims).bind
  rintro _ _ _ _ ⟨rfl, rfl, rfl, rfl⟩
  rw [if_pos rfl]
  apply works.bind
  intro told more a s' holds
  have releases : (release id s').Ends fun _ s'' => s''.published = s'.published ∧
      s'' = releasing id s' := ⟨rfl, rfl⟩
  apply (Reports.of_ends releases).bind
  rintro _ _ _ _ ⟨rfl, rfl, rfl⟩
  exact .pure (by simpa using holds)

theorem reports_claiming {body : Engine (Except Failure α)}
    {post : List Event → List Exchange → Except Failure α → Situation → Prop}
    (fails : ∀ f s', post [] [] (.error f) s')
    (works : Reports id body { s with claimed := id :: s.claimed }
      fun told more reply s' => post told more reply (releasing id s')) :
    Reports id (claiming id body) s post := by
  by_cases busy : id ∈ s.claimed
  · have refuses : (claiming id body s).Ends fun reply s' =>
        s'.published = s.published ∧ post [] [] reply s' := by
      rw [claiming_busy body busy]
      exact ⟨rfl, fails _ s⟩
    apply (Reports.of_ends refuses).mono
    rintro _ _ reply s' ⟨rfl, rfl, holds⟩
    exact holds
  · exact reports_holding busy works

/-- A conversation is claimed and loaded, worked on and released. -/
theorem reports_claiming_load {rest : Conversation → Engine (Except Failure α)}
    {post : List Event → List Exchange → Except Failure α → Situation → Prop}
    (sound : s.store.Sound) (fails : ∀ f s', post [] [] (.error f) s')
    (works : ∀ c s₁, s.store.backing.get id = .ok (some c) → c.id = id → s₁.flows = s.flows →
      s₁.cancelRequests = s.cancelRequests →
      Reports id (rest c) s₁ fun told more reply s' => post told more reply (releasing id s')) :
    Reports id (claiming id do
      match ← load id with
      | .error f => return .error f
      | .ok c => rest c) s post := by
  refine reports_claiming fails ?_
  apply ((looks_load id).silent.reports (load_ends_idle id _)).bind
  rintro _ _ loaded s₁ ⟨rfl, rfl, idle, found⟩
  cases loaded with
  | error f => exact .pure (fails f _)
  | ok c => exact works c s₁ (found c rfl) (sound.id_eq (found c rfl)) idle.flows idle.requests

/-- What is heard of an operation that takes up to so many steps with a conversation that is
stored: nothing if it fails. -/
def Marches (id : String) (most : Nat) (s : Situation) (told : List Event) (more : List Exchange)
    (reply : Except Failure StepResult) (s' : Situation) : Prop :=
  (∃ f, reply = .error f) ∧ told = [] ∧ more = [] ∨
    ∃ c n o s₁, s.store.backing.get id = .ok (some c) ∧ n ≤ most ∧ Strides n s c told more o s₁ ∧
      s'.store = s₁.store ∧ reply = .ok o

theorem reports_step (sound : s.store.Sound) :
    Reports id (step id) s (Marches id 1 s) := by
  refine reports_claiming_load sound (fun f _ => .inl ⟨⟨f, rfl⟩, rfl, rfl⟩) ?_
  intro c s₁ found named flows requests
  apply (reports_advance named).bind
  rintro told more o s' ⟨announced, -⟩
  refine .pure (.inr ⟨c, 1, o, s', found, Nat.le_refl 1, ?_, rfl, rfl⟩)
  simpa using Strides.one (announced.of_same flows requests)

theorem reports_run (sound : s.store.Sound) (most : Nat) :
    Reports id (run id most) s (Marches id (max 1 most) s) := by
  refine reports_claiming_load sound (fun f _ => .inl ⟨⟨f, rfl⟩, rfl, rfl⟩) ?_
  intro c s₁ found named flows requests
  apply (reports_advance named).bind
  rintro told more o s' ⟨announced, named'⟩
  apply (reports_keepGoing (most - 1) (.one announced) named').bind
  rintro told' more' o' s'' ⟨n, few, strides⟩
  refine .pure (.inr ⟨c, n, o', s'', found, by omega, ?_, rfl, rfl⟩)
  simpa using strides.of_same flows requests

/-- What is heard of a step with a conversation at hand, unless it is refused. -/
theorem reports_stepWith (c : Conversation) : Reports c.id (stepWith c) s fun told more o s' =>
    (Text.isBlankText c.id = true ∨ c.id ∈ s.claimed) ∧ told = [] ∧ more = [] ∨
      ∃ s₁, Announced s c told more o s₁ ∧ s'.store = s₁.store := by
  by_cases refused : Text.isBlankText c.id = true ∨ c.id ∈ s.claimed
  · obtain ⟨f, refuses⟩ := stepWith_refused refused
    have ends : (stepWith c s).Ends fun _ s' => s'.published = s.published ∧ True := by
      rw [refuses]
      exact ⟨rfl, trivial⟩
    apply (Reports.of_ends ends).mono
    rintro _ _ _ _ ⟨rfl, rfl, -⟩
    exact .inl ⟨refused, rfl, rfl⟩
  · obtain ⟨solid, free⟩ := not_or.1 refused
    unfold stepWith
    dsimp only
    rw [if_neg solid]
    apply reports_holding free
    apply (reports_advance rfl).mono
    rintro told more o s' ⟨announced, -⟩
    exact .inr ⟨s', announced.of_same rfl rfl, rfl⟩

/-- What is heard of a decision is about the conversation of the call alone. -/
theorem reports_resolve (sound : s.store.Sound) (call : String) (decision : Decision) :
    Reports id (resolve id call decision) s fun _ _ _ _ => True := by
  refine reports_claiming_load sound (fun _ _ => trivial) ?_
  intro c s₁ _ named _ _
  apply reports_now.bind
  rintro _ _ now s₂ -
  split
  · exact .pure trivial
  next taken rest found =>
  have own : rest.id = id := by
    obtain ⟨others, -, rfl⟩ := Conversation.takeCall_spec found
    exact named
  subst own
  have decides : Reports rest.id (decide rest taken decision) s₂ fun _ _ _ _ => True := by
    cases decision with
    | approve =>
      apply (reports_invoke taken).bind
      rintro _ _ outcome s₃ -
      split <;> exact .pure trivial
    | reject reason =>
      apply looks_situation.silent.quiet.bind
      rintro _ _ _ s₃ -
      exact .pure trivial
  apply decides.bind
  rintro _ _ result s₃ -
  apply looks_stamp.silent.quiet.bind
  rintro _ _ t s₄ -
  dsimp only
  split
  all_goals
    apply (reports_write _).bind
    rintro _ _ written s₅ -
    split
    · exact .pure trivial
    · apply (reports_publish rfl).bind
      rintro _ _ _ s₆ -
      exact .pure trivial

/-! ## Operations that are not heard of -/

theorem silent_save (c : Conversation) : Silent (save c) := by
  apply (silent_write c).bind
  intro written
  split <;> exact .pure _

theorem silent_claiming {body : Engine (Except Failure α)} (silent : Silent body) (id : String) :
    Silent (claiming id body) := by
  have claims : Silent (tryClaim id) := by
    intro s
    unfold tryClaim
    split <;> rfl
  have releases : Silent (release id) := fun _ => rfl
  apply claims.bind
  intro free
  split
  · exact silent.bind fun _ => releases.bind fun _ => .pure _
  · exact .pure _

theorem silent_claiming_load {rest : Conversation → Engine (Except Failure α)}
    (silent : ∀ c, Silent (rest c)) (id : String) :
    Silent (claiming id do
      match ← load id with
      | .error f => return .error f
      | .ok c => rest c) := by
  refine silent_claiming ((looks_load id).silent.bind fun loaded => ?_) id
  split
  · exact .pure _
  · exact silent _

theorem silent_start (chosen : Option String) (flow : String) (message : Option String) :
    Silent (start chosen flow message) := by
  apply (looks_graph flow).silent.bind
  intro found
  split
  · exact .pure _
  extract_lets begins
  have begin (id : String) : Silent (begins id) := by
    dsimp only [begins]
    split
    · exact .pure _
    refine silent_claiming ((looks_read id).silent.bind fun known => ?_) id
    split
    · exact .pure _
    · exact .pure _
    refine looks_situation.silent.bind fun _ => looks_now.silent.bind fun _ => ?_
    split
    · exact silent_save _
    · exact looks_stamp.silent.bind fun _ => silent_save _
  clear_value begins
  cases chosen with
  | some id => exact begin id
  | none => exact looks_stamp.silent.bind fun t => begin t.id

theorem silent_post (id text : String) : Silent (post id text) := by
  refine silent_claiming_load (fun c => ?_) id
  split
  · exact .pure _
  split
  · exact .pure _
  refine looks_stamp.silent.bind fun t => ?_
  dsimp only
  split
  · apply (looks_graph _).silent.bind
    intro found
    split
    · exact .pure _
    · exact silent_save _
  · exact silent_save _

theorem silent_cancel (id : String) : Silent (cancel id) := by
  intro s
  by_cases busy : id ∈ s.claimed
  · have parks : Silent (parkCancel id) := by
      intro s
      change (if s.cancelRequests.contains id then s else
        { s with cancelRequests := id :: s.cancelRequests }).published = _
      split <;> rfl
    unfold cancel
    rw [Activity.bind_run, tryClaim_busy busy]
    exact (parks.bind fun _ => .pure _) s
  · rw [cancel_free busy]
    exact silent_claiming_load (fun c => looks_now.silent.bind fun _ => silent_write _) id s

theorem silent_setRecording (id : String) (enabled : Bool) : Silent (setRecording id enabled) :=
  silent_claiming_load (fun _ => looks_now.silent.bind fun _ => silent_save _) id

theorem silent_resumeTrace (id : String) : Silent (resumeTrace id) :=
  (looks_dropCursor id).silent.bind fun _ => silent_setRecording id false

theorem silent_register (flow : AuthoredFlow) : Silent (register flow) := by
  unfold register
  split
  · exact .pure _
  · exact fun _ => rfl

end Engine

end DialogueEngine
