import DialogueEngine.Proofs.Engine.Stillness
import DialogueEngine.Proofs.Engine.Undertaking

/-!
What all that operations do leaves alone. Whatever is read, written, published and asked changes
some fields of a situation only, and each of them in one way; a relation that holds across each such
change is upheld by every operation, whoever answers it, as long as the answers uphold it too.
Claims are made and given back in pairs, and that a node is run is told once in a step.
-/

namespace DialogueEngine

namespace Situation

/-- A change that an operation makes, other than to write, to the claims or to tell that a node is
run. -/
inductive Touches : Situation → Situation → Prop
  | published (s : Situation) {e : Event} (other : e.isStart = false) :
      Touches s { s with published := s.published ++ [e] }
  | ticked (s : Situation) : Touches s { s with clock := s.clock.tick.2 }
  | looked (s : Situation) (id : String) : Touches s { s with store := (s.store.get id).2 }
  | requested (s : Situation) (ids : List String) : Touches s { s with cancelRequests := ids }
  | placed (s : Situation) (cursors : Table Nat) : Touches s { s with cursors }
  | registered (s : Situation) (flows : Table Graph) : Touches s { s with flows }

/-- A relation between earlier and later situations that holds across every such change. -/
structure Steady (R : Situation → Situation → Prop) : Prop where
  refl (s : Situation) : R s s
  trans {s s' s'' : Situation} (first : R s s') (second : R s' s'') : R s s''
  touches {s s' : Situation} (change : Touches s s') : R s s'

/-- Such a relation holds across the changes that the run of a node makes. -/
theorem Steady.still {R : Situation → Situation → Prop} (steady : Steady R) : Still R where
  refl := steady.refl
  trans := steady.trans
  published := fun s _ other => steady.touches (.published s other)
  ticked := fun s => steady.touches (.ticked s)

/-- A relation that holds across every write as well. -/
structure Lasting (R : Situation → Situation → Prop) : Prop extends Steady R where
  wrote (s : Situation) (c : Conversation) : R s (s.saving c)

/-- What no such change ends is kept across each of them. -/
theorem Lasting.of_inv {inv : Situation → Prop}
    (kept : ∀ s s', Touches s s' → inv s → inv s') (saved : ∀ s c, inv s → inv (s.saving c)) :
    Lasting fun s s' => inv s → inv s' where
  refl := fun _ holds => holds
  trans := fun first second holds => second (first holds)
  touches := fun change => kept _ _ change
  wrote := fun s c => saved s c

/-- A relation that also holds across what is done to the claims on one conversation, and across
telling that a node is run. -/
structure Conducts (R : Situation → Situation → Prop) (id : String) : Prop
    extends Lasting R where
  starts (s : Situation) (conversation node : String) :
    R s { s with published := s.published ++ [.stepStarted conversation node] }
  claims (s : Situation) : R s { s with claimed := id :: s.claimed }
  releases (s : Situation) : R s (Engine.releasing id s)

end Situation

namespace Engine

open Situation (Conducts Lasting Steady Still Touches)

variable {α β : Type} {R : Situation → Situation → Prop}

/-- Within each of its stretches a computation keeps to a relation, as long as those who answer it
do. -/
def Upholds (R : Situation → Situation → Prop) (x : Engine α) : Prop :=
  ∀ since s, R since s →
    (x s).Abides R R (fun _ _ => True) (fun since _ s => R since s) since

namespace Upholds

theorem pure (a : α) : Upholds R (Pure.pure a : Engine α) := fun _ _ holds => holds

theorem bind {x : Engine α} {f : α → Engine β} (first : Upholds R x)
    (later : ∀ a, Upholds R (f a)) : Upholds R (x >>= f) :=
  fun since s holds => Activity.abides_bind (first since s holds)
    fun since' a s' holds' => later a since' s' holds'

/-- What asks nothing is one stretch. -/
theorem ends (steady : Steady R) {x : Engine α} {s : Situation} {post : α → Situation → Prop}
    (upholds : Upholds R x) (ends : (x s).Ends post) :
    (x s).Ends fun a s' => post a s' ∧ R s s' := by
  have upheld := upholds s s (steady.refl s)
  obtain ⟨s', a, done, reached⟩ := ends.eq_done
  rw [done] at upheld ⊢
  exact ⟨reached, upheld⟩

end Upholds

theorem upholds_situation : Upholds R situation := fun _ _ holds => holds

theorem upholds_graph (flow : String) : Upholds R (graph flow) := by
  apply upholds_situation.bind
  intro s
  split <;> exact .pure _

theorem upholds_cursor (id : String) (size : Nat) : Upholds R (cursor id size) := by
  unfold cursor
  split
  · exact .pure _
  · exact upholds_situation.bind fun _ => .pure _

section Steady

variable (steady : Steady R)
include steady

/-! ## What operations are made of -/

theorem upholds_ask (q : Question) : Upholds R (ask q) :=
  fun _ _ holds => ⟨holds, trivial, fun _ s' _ => steady.refl s'⟩

/-- A change that asks nothing. -/
theorem upholds_of_touches {x : Engine α}
    (ends : ∀ s, (x s).Ends fun _ s' => Touches s s') : Upholds R x :=
  fun _ s holds => (ends s).abides fun _ _ change => steady.trans holds (steady.touches change)

theorem upholds_publish {e : Event} (other : e.isStart = false) : Upholds R (publish e) :=
  upholds_of_touches steady fun s => .published s other

theorem upholds_stamp : Upholds R stamp := upholds_of_touches steady .ticked

theorem upholds_now : Upholds R now := (upholds_stamp steady).bind fun _ => .pure _

theorem upholds_read (id : String) : Upholds R (read id) :=
  upholds_of_touches steady fun s => .looked s id

theorem upholds_takeCancel (id : String) : Upholds R (takeCancel id) :=
  upholds_of_touches steady fun s => .requested s _

theorem upholds_parkCancel (id : String) : Upholds R (parkCancel id) := by
  refine upholds_of_touches steady fun s => ?_
  change Touches s (if s.cancelRequests.contains id then s
    else { s with cancelRequests := id :: s.cancelRequests })
  split
  · exact .requested s s.cancelRequests
  · exact .requested s _

theorem upholds_setCursor (id : String) (place : Nat) : Upholds R (setCursor id place) :=
  upholds_of_touches steady fun s => .placed s _

theorem upholds_dropCursor (id : String) : Upholds R (dropCursor id) :=
  upholds_of_touches steady fun s => .placed s _

theorem upholds_load (id : String) : Upholds R (load id) := by
  apply (upholds_read steady id).bind
  intro found
  split <;> exact .pure _

/-! ## Nodes -/

/-- What leaves alone all but events and the clock, whatever others do, upholds the relation. -/
theorem Stays.upholds {x : Engine α} (stays : Still R → Stays R x) : Upholds R x :=
  fun since s holds => (stays steady.still since s holds).relying fun _ _ _ => trivial

theorem upholds_turnTools (p : TurnPlan) (c : Conversation) : Upholds R (turnTools p c) :=
  Stays.upholds steady fun still => stays_turnTools still p c

theorem upholds_invoke (conversation : String) (call : ToolCall) :
    Upholds R (invoke conversation call) :=
  Stays.upholds steady fun still => stays_invoke still conversation call

theorem upholds_transcript (systemPrompt : String) (c : Conversation) :
    Upholds R (transcript systemPrompt c) :=
  Stays.upholds steady fun still => stays_transcript still systemPrompt c

theorem upholds_visit (node : Node) (c : Conversation) : Upholds R (visit node c) :=
  Stays.upholds steady fun still => stays_visit still node c

theorem upholds_decide (c : Conversation) (call : ToolCall) (decision : Decision) :
    Upholds R (decide c call decision) := by
  cases decision with
  | approve =>
    apply (upholds_invoke steady c.id call).bind
    intro outcome
    split <;> exact .pure _
  | reject reason => exact upholds_situation.bind fun _ => .pure _

/-! ## Records and flows -/

theorem upholds_trace (id : String) : Upholds R (trace id) := by
  apply (upholds_load steady id).bind
  intro loaded
  split <;> exact .pure _

theorem upholds_currentRecord (id : String) : Upholds R (currentRecord id) := by
  apply (upholds_trace steady id).bind
  intro records
  split
  · exact .pure _
  · apply (upholds_cursor id _).bind
    intro place
    split <;> exact .pure _

theorem upholds_goBack (id : String) : Upholds R (goBack id) := by
  apply (upholds_trace steady id).bind
  intro records
  split
  · exact .pure _
  · apply (upholds_cursor id _).bind
    intro place
    split
    · exact .pure _
    · exact (upholds_setCursor steady id _).bind fun _ => .pure _

theorem upholds_register (flow : AuthoredFlow) : Upholds R (register flow) := by
  unfold register
  split
  · exact .pure _
  · next g _ =>
    have registers : Upholds R (update fun s => { s with flows := s.flows.insert flow.id g }) :=
      upholds_of_touches steady fun s => .registered s _
    exact registers.bind fun _ => .pure _

end Steady

/-! ## Steps -/

section Lasting

variable (lasting : Lasting R)
include lasting

theorem upholds_write (c : Conversation) : Upholds R (write c) :=
  fun _ s holds => lasting.trans holds (lasting.wrote s c)

theorem upholds_save (c : Conversation) : Upholds R (save c) := by
  apply (upholds_write lasting c).bind
  intro written
  split <;> exact .pure _

theorem upholds_failStep (c : Conversation) (f : Failure) : Upholds R (failStep c f) := by
  apply (upholds_now lasting.toSteady).bind
  intro now
  apply (upholds_write lasting _).bind
  intro _
  exact (upholds_publish lasting.toSteady rfl).bind fun _ => .pure _

theorem upholds_pickUpCancel (c : Conversation) : Upholds R (pickUpCancel c) := by
  apply (upholds_takeCancel lasting.toSteady c.id).bind
  intro parked
  split
  · apply (upholds_now lasting.toSteady).bind
    intro now
    exact (upholds_write lasting _).bind fun _ => .pure _
  · exact .pure _

/-- Writing what a node left, which fails the step where it is refused. -/
theorem upholds_settle (node : Node) (c : Conversation) (action : Action) (next : Option String) :
    Upholds R (do
      match ← write c with
      | .error f => failStep c f
      | .ok () =>
        publish (.stepCompleted c.id node.id action)
        return ⟨c, action, next⟩) := by
  apply (upholds_write lasting c).bind
  intro written
  split
  · exact upholds_failStep lasting _ _
  · exact (upholds_publish lasting.toSteady rfl).bind fun _ => .pure _

theorem upholds_completeStep (node : Node) (c : Conversation) (before : Option Json)
    (run : Visit) : Upholds R (completeStep node c before run) := by
  unfold completeStep
  cases before with
  | none => exact (upholds_now lasting.toSteady).bind fun now => upholds_settle lasting node _ _ _
  | some before =>
    exact (upholds_now lasting.toSteady).bind fun noted => (Upholds.pure _).bind fun c =>
      (upholds_now lasting.toSteady).bind fun now => upholds_settle lasting node _ _ _

/-- The run of a node, once it has been told. -/
theorem stepNode_abides (node : Node) {c : Conversation} {since s : Situation}
    (starts : R since { s with published := s.published ++ [.stepStarted c.id node.id] }) :
    (stepNode node c s).Abides R R (fun _ _ => True) (fun since _ s => R since s) since := by
  have named : c.leavePause.id = c.id := Conversation.leavePause_id c
  have told : (publish (.stepStarted c.leavePause.id node.id) s).Ends fun _ s' => R since s' := by
    rw [named]
    exact starts
  apply Activity.abides_bind_ends told
  intro _ s₁ holds
  refine ((upholds_visit lasting.toSteady node c.leavePause).bind ?_) since s₁ holds
  rintro ⟨c', result⟩
  apply (upholds_takeCancel lasting.toSteady _).bind
  intro cancel
  cases result with
  | ok run => exact upholds_completeStep lasting _ _ _ run
  | error f =>
    dsimp only
    split
    · exact upholds_failStep lasting _ _
    · exact (upholds_now lasting.toSteady).bind fun noted => upholds_failStep lasting _ _

/-- A step keeps to one relation until it tells that a node is run and to another one from then on,
if the telling leads from the one to the other. -/
theorem advance_abides {R₀ : Situation → Situation → Prop} (before : Lasting R₀)
    {c : Conversation} {since s : Situation} (reaches : ∀ s', R₀ s s' → R since s')
    (starts : ∀ s' node, R₀ s s' →
      R since { s' with published := s'.published ++ [.stepStarted c.id node] }) :
    (advance c s).Abides R R (fun _ _ => True) (fun since _ s => R since s) since := by
  have names : (pickUpCancel c s).Ends fun d _ => d.id = c.id := by
    refine (pickUpCancel_ends c s).mono (fun _ asked => asked) fun d s' picked => ?_
    rcases picked with ⟨rfl, -⟩ | ⟨now, rfl, -⟩ <;> rfl
  apply Activity.abides_bind_ends ((upholds_pickUpCancel before c).ends before.toSteady names)
  rintro c₁ s₁ ⟨named, holds⟩
  split
  · exact reaches s₁ holds
  split
  · exact reaches s₁ holds
  split
  · exact reaches s₁ holds
  apply Activity.abides_bind_ends (graph_ends c₁.flow s₁)
  rintro found _ rfl
  split
  · exact upholds_failStep lasting _ _ since _ (reaches _ holds)
  · exact stepNode_abides lasting _ (named.symm ▸ starts _ _ holds)

end Lasting

/-! ## Operations -/

section Conducts

variable {id : String} (conducts : Conducts R id)
include conducts

theorem upholds_tryClaim : Upholds R (tryClaim id) := by
  intro since s holds
  by_cases free : id ∈ s.claimed
  · rw [tryClaim_busy free]
    exact holds
  · rw [tryClaim_free free]
    exact conducts.trans holds (conducts.claims s)

theorem upholds_release : Upholds R (release id) :=
  fun _ s holds => conducts.trans holds (conducts.releases s)

theorem upholds_claiming {body : Engine (Except Failure α)} (works : Upholds R body) :
    Upholds R (claiming id body) := by
  apply (upholds_tryClaim conducts).bind
  intro free
  split
  · exact works.bind fun _ => (upholds_release conducts).bind fun _ => .pure _
  · exact .pure _

theorem upholds_advance (c : Conversation) : Upholds R (advance c) := fun _ _ holds =>
  advance_abides conducts.toLasting conducts.toLasting (fun _ later => conducts.trans holds later)
    fun _ _ later => conducts.trans (conducts.trans holds later) (conducts.starts _ _ _)

theorem upholds_keepGoing (budget : Nat) (o : StepResult) : Upholds R (keepGoing budget o) := by
  induction budget generalizing o with
  | zero => exact .pure _
  | succ budget ih =>
    unfold keepGoing
    split
    · exact (upholds_advance conducts _).bind fun o => ih o
    · exact .pure _

/-- What is done with a conversation that is claimed and loaded. -/
theorem upholds_claiming_load {rest : Conversation → Engine (Except Failure α)}
    (works : ∀ c, Upholds R (rest c)) :
    Upholds R (claiming id do
      match ← load id with
      | .error f => return .error f
      | .ok c => rest c) := by
  apply upholds_claiming conducts
  apply (upholds_load conducts.toSteady id).bind
  intro loaded
  split
  · exact .pure _
  · exact works _

theorem upholds_step : Upholds R (step id) :=
  upholds_claiming_load conducts fun c => (upholds_advance conducts c).bind fun _ => .pure _

theorem upholds_run (most : Nat) : Upholds R (run id most) :=
  upholds_claiming_load conducts fun c => (upholds_advance conducts c).bind fun o =>
    (upholds_keepGoing conducts _ o).bind fun _ => .pure _

theorem upholds_post (text : String) : Upholds R (post id text) := by
  refine upholds_claiming_load conducts fun c => ?_
  split
  · exact .pure _
  split
  · exact .pure _
  apply (upholds_stamp conducts.toSteady).bind
  intro t
  dsimp only
  split
  · apply (upholds_graph c.flow).bind
    intro found
    split
    · exact .pure _
    · exact upholds_save conducts.toLasting _
  · exact upholds_save conducts.toLasting _

theorem upholds_setRecording (enabled : Bool) : Upholds R (setRecording id enabled) :=
  upholds_claiming_load conducts fun _ =>
    (upholds_now conducts.toSteady).bind fun _ => upholds_save conducts.toLasting _

theorem upholds_resolve (call : String) (decision : Decision) :
    Upholds R (resolve id call decision) := by
  have lasting := conducts.toLasting
  refine upholds_claiming_load conducts fun c => ?_
  apply (upholds_now lasting.toSteady).bind
  intro now
  split
  · exact .pure _
  · next taken c' _ =>
    apply (upholds_decide lasting.toSteady c' taken decision).bind
    intro result
    apply (upholds_stamp lasting.toSteady).bind
    intro t
    dsimp only
    apply (upholds_write lasting _).bind
    intro written
    split
    · exact .pure _
    · exact (upholds_publish lasting.toSteady rfl).bind fun _ => .pure _

theorem upholds_cancel : Upholds R (cancel id) := by
  intro since s holds
  have lasting := conducts.toLasting
  by_cases free : id ∈ s.claimed
  · unfold cancel
    rw [Activity.bind_run, tryClaim_busy free]
    exact (upholds_parkCancel lasting.toSteady id).bind (fun _ => .pure _) since s holds
  · rw [cancel_free free]
    refine (upholds_claiming_load conducts fun c => ?_) since s holds
    exact (upholds_now lasting.toSteady).bind fun _ => upholds_write lasting _

theorem upholds_resumeTrace : Upholds R (resumeTrace id) :=
  (upholds_dropCursor conducts.toSteady id).bind fun _ => upholds_setRecording conducts false

theorem upholds_stepBeyond (recorded : Nat) : Upholds R (stepBeyond id recorded) := by
  apply (upholds_step conducts).bind
  intro outcome
  split
  · exact .pure _
  · exact (upholds_dropCursor conducts.toSteady id).bind fun _ => .pure _

theorem upholds_goForward : Upholds R (goForward id) := by
  apply (upholds_trace conducts.toSteady id).bind
  intro records
  split
  · exact .pure _
  · apply (upholds_cursor id _).bind
    intro place
    split
    · exact upholds_stepBeyond conducts _
    · split
      · exact (upholds_setCursor conducts.toSteady id _).bind fun _ => .pure _
      · exact upholds_stepBeyond conducts _

end Conducts

theorem upholds_stepWith {c : Conversation} (conducts : Conducts R c.id) :
    Upholds R (stepWith c) := by
  unfold stepWith
  dsimp only
  split
  · exact .pure _
  · apply (upholds_tryClaim conducts).bind
    intro free
    split
    · exact (upholds_advance conducts c).bind fun _ =>
        (upholds_release conducts).bind fun _ => .pure _
    · exact .pure _

/-- A conversation that gets a new id is the one that the clock names next. -/
theorem start_upholds {chosen : Option String} {s : Situation}
    (conducts : Conducts R (chosen.getD s.clock.tick.1.id)) (flow : String)
    (message : Option String) :
    (start chosen flow message s).Abides R R (fun _ _ => True) (fun since _ s => R since s) s := by
  have lasting := conducts.toLasting
  unfold start
  apply Activity.abides_bind_ends (graph_ends flow s)
  rintro found _ rfl
  split
  · exact lasting.refl _
  extract_lets begins
  have begin {id : String} (conducts : Conducts R id) : Upholds R (begins id) := by
    dsimp only [begins]
    split
    · exact .pure _
    apply upholds_claiming conducts
    apply (upholds_read lasting.toSteady id).bind
    intro kept
    split
    · exact .pure _
    · exact .pure _
    · apply upholds_situation.bind
      intro s
      apply (upholds_now lasting.toSteady).bind
      intro now
      split
      · exact upholds_save lasting _
      · exact (upholds_stamp lasting.toSteady).bind fun _ => upholds_save lasting _
  clear_value begins
  cases chosen with
  | some id => exact begin conducts _ _ (lasting.refl _)
  | none => exact begin conducts _ _ (lasting.touches (.ticked _))

end Engine

open Situation (Conducts Lasting)

namespace Undertaking

/-- An undertaking keeps to what lasts across its claim on the conversation that it is about. -/
theorem perform_upholds {R : Situation → Situation → Prop} {u : Undertaking} {s : Situation}
    (lasting : Lasting R) (conducts : ∀ id, u.subject s = some id → Conducts R id) :
    (u.perform s).Abides R R (fun _ _ => True) (fun since _ s => R since s) s := by
  have outcome {α : Type} {x : Engine α} {f : α → Reply} (upholds : Engine.Upholds R x) :
      ((do return f (← x) : Engine Reply) s).Abides R R (fun _ _ => True)
        (fun since _ s => R since s) s :=
    (upholds.bind fun _ => .pure _) s s (lasting.refl s)
  cases u with
  | registration flow => exact outcome (Engine.upholds_register lasting.toSteady flow)
  | stepWith c => exact outcome (Engine.upholds_stepWith (conducts c.id rfl))
  | operation op =>
    cases op with
    | start chosen flow message =>
      apply Activity.abides_bind (Engine.start_upholds (conducts _ rfl) flow message)
      intro since reply s' holds
      exact holds
    | post id text => exact outcome (Engine.upholds_post (conducts id rfl) text)
    | step id => exact outcome (Engine.upholds_step (conducts id rfl))
    | run id most => exact outcome (Engine.upholds_run (conducts id rfl) most)
    | cancel id => exact outcome (Engine.upholds_cancel (conducts id rfl))
    | setRecording id enabled =>
      exact outcome (Engine.upholds_setRecording (conducts id rfl) enabled)
    | resolve id call decision =>
      exact outcome (Engine.upholds_resolve (conducts id rfl) call decision)
    | enableTrace id => exact outcome (Engine.upholds_setRecording (conducts id rfl) true)
    | resumeTrace id => exact outcome (Engine.upholds_resumeTrace (conducts id rfl))
    | currentRecord id => exact outcome (Engine.upholds_currentRecord lasting.toSteady id)
    | goBack id => exact outcome (Engine.upholds_goBack lasting.toSteady id)
    | goForward id => exact outcome (Engine.upholds_goForward (conducts id rfl))

end Undertaking

end DialogueEngine
