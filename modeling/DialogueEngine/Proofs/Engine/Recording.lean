import DialogueEngine.Proofs.Engine.Operation

/-!
The records of steps. A step that runs a node appends one record where steps are recorded, whether
the node succeeds or fails and whether or not what comes of it can be written; otherwise nothing is
recorded.
-/

namespace DialogueEngine

namespace Conversation

/-- Whether and what is recorded, and how many nodes have been run. -/
def tape (c : Conversation) : Bool × List StepRecord × Nat := (c.debugMode, c.trace, c.steps)

/-- A node has been run, and recorded if steps are recorded. -/
structure RecordsRun (c c' : Conversation) : Prop where
  steps : c'.steps = c.steps + 1
  mode : c'.debugMode = c.debugMode
  recorded : c.debugMode = true →
    ∃ r, c'.trace = c.trace ++ [r] ∧ r.index = c.trace.length ∧ c'.current = some r.node
  unrecorded : c.debugMode = false → c'.trace = c.trace

theorem leavePause_tape (c : Conversation) : c.leavePause.tape = c.tape := by
  unfold leavePause
  split <;> rfl

theorem Engaged.tape {c c' : Conversation} {left : List String} (engaged : Engaged c c' left) :
    c'.tape = c.tape :=
  (congrArg Conversation.tape engaged.frame :)

theorem Passes.tape {node : Node} {c c' : Conversation} {action : Action}
    (passes : Passes node c c' action) : c'.tape = c.tape := by
  cases passes with
  | start kind prompt now => rfl
  | turn kind engaged action => exact engaged.tape
  | @paused spec c'' calls kind engaged some approvable route now =>
    have waits : ({ c'' with handoff := route }.pauseFor calls now).tape = c''.tape := by
      unfold pauseFor
      split <;> rfl
    exact waits.trans engaged.tape
  | listing kind engaged same => exact engaged.tape
  | finish kind now => rfl

section Ends

variable {c : Conversation} {node : Node} {cancel : Bool} {before : Option Json} {f : Failure}
  {noted now : Instant}

/-- What is added to the records at the end of a run. -/
def Notes (node : Node) (recorded : Bool) (c c' : Conversation) : Prop :=
  ∃ added, c'.tape = (c.debugMode, c.trace ++ added, c.steps) ∧ c'.current = c.current ∧
    if recorded then ∃ r, added = [r] ∧ r.index = c.trace.length ∧ r.node = node.id
    else added = []

theorem noteRun_notes {run : Visit} :
    Notes node before.isSome c (c.noteRun node run before noted) := by
  cases before with
  | none => exact ⟨[], by rw [List.append_nil]; rfl, rfl, rfl⟩
  | some before =>
    unfold noteRun
    dsimp only
    split
    · exact ⟨_, rfl, rfl, _, rfl, rfl, rfl⟩
    · exact ⟨_, rfl, rfl, _, rfl, rfl, rfl⟩

theorem conclude_notes {run : Visit} :
    Notes node before.isSome c (c.conclude node run before noted now) := by
  have notes : Notes node before.isSome { c with next := node.next run.action }
      ({ c with next := node.next run.action }.noteRun node run before noted) := noteRun_notes
  exact notes

theorem noteFailure_notes :
    Notes node before.isSome c (c.noteFailure node before f noted) := by
  cases before with
  | none => exact ⟨[], by rw [List.append_nil]; rfl, rfl, rfl⟩
  | some before => exact ⟨_, rfl, rfl, _, rfl, rfl, rfl⟩

theorem Notes.giveUp {recorded : Bool} {c' : Conversation} (notes : Notes node recorded c c') :
    Notes node recorded c (c'.giveUp f now) := notes

/-- What has been noted of a run that a conversation arrived from is its record. -/
theorem Notes.recordsRun {base c' visited : Conversation} (kept : visited.tape = base.tape)
    (notes : Notes node base.debugMode (visited.arrive node cancel) c') :
    base.RecordsRun c' := by
  obtain ⟨mode, trace, steps⟩ :
      visited.debugMode = base.debugMode ∧ visited.trace = base.trace ∧
        visited.steps = base.steps := by
    simpa [tape] using kept
  obtain ⟨added, taped, current, some⟩ := notes
  have arrived : (visited.arrive node cancel).debugMode = base.debugMode ∧
      (visited.arrive node cancel).trace = base.trace ∧
      (visited.arrive node cancel).steps = base.steps + 1 ∧
      (visited.arrive node cancel).current = Option.some node.id := by
    cases cancel <;> exact ⟨mode, trace, congrArg (· + 1) steps, rfl⟩
  obtain ⟨mode', trace', steps', current'⟩ := arrived
  rw [mode', trace', steps'] at taped
  rw [trace'] at some
  simp only [tape, Prod.mk.injEq] at taped
  refine ⟨taped.2.2, taped.1, fun on => ?_, fun off => ?_⟩
  · rw [on, if_pos rfl] at some
    obtain ⟨r, rfl, index, named⟩ := some
    exact ⟨r, taped.2.1, index, current.trans (current'.trans (congrArg Option.some named.symm))⟩
  · rw [off] at some
    have none : added = [] := some
    rw [taped.2.1, none, List.append_nil]

end Ends

end Conversation

namespace Engine

open Conversation (Notes)

variable {settings : Settings} {c : Conversation} {node : Node} {f : Failure}

/-- What comes of a computation, as long as the settings stay what they are. -/
abbrev Comes {α : Type} (settings : Settings) (x : Engine α) (post : α → Prop) : Prop :=
  Keeps (.lenient settings False) True x post

theorem Comes.meets {α : Type} {x : Engine α} {post : α → Prop} (comes : Comes settings x post)
    {s : Situation} (same : s.settings = settings) :
    (x s).Meets (fun t => t.settings = settings) (fun _ => True) fun a _ => post a := by
  have orderly : (Regime.lenient settings False).Orderly = fun t => t.settings = settings :=
    funext fun _ => propext ⟨fun orderly => orderly.settings,
      fun same => Regime.orderly_lenient same False.elim⟩
  have meets := comes s (orderly ▸ same)
  rw [orderly] at meets
  exact meets.mono (fun _ _ => trivial) fun _ _ holds => holds.2

theorem comes_failStep (c : Conversation) (f : Failure) :
    Comes settings (failStep c f) fun o => ∃ now, o.conversation = c.giveUp f now := by
  apply keeps_now.bind
  intro now _
  apply (keeps_write trivial).bind
  intro _ _
  exact (keeps_publish _).bind fun _ _ => .pure ⟨now, rfl⟩

theorem comes_completeStep (c : Conversation) (node : Node) (before : Option Json) (run : Visit) :
    Comes settings (completeStep node c before run)
      fun o => Notes node before.isSome c o.conversation := by
  have written (noted now : Instant) : Comes settings
      (concluding (c.conclude node run before noted now) node run)
      fun o => Notes node before.isSome c o.conversation := by
    apply (keeps_write trivial).bind
    intro result _
    split
    · apply (comes_failStep _ _).mono
      rintro o ⟨later, same⟩
      rw [same]
      exact Conversation.conclude_notes.giveUp
    · exact (keeps_publish _).bind fun _ _ => .pure Conversation.conclude_notes
  unfold completeStep
  cases before with
  | none => exact keeps_now.bind fun now _ => written now now
  | some before =>
    exact keeps_now.bind fun noted _ => keeps_now.bind fun now _ => written noted now

theorem comes_stepNode (ready : c.Ready) (node : Node) :
    Comes settings (stepNode node c) fun o => c.RecordsRun o.conversation := by
  apply (keeps_publish _).bind
  intro _ _
  apply (keeps_visit False.elim ⟨c, trivial, ready, rfl⟩).bind
  rintro ⟨c', result⟩ visits
  apply (keeps_takeCancel _).bind
  intro cancel _
  have watched : c.leavePause.debugMode = c.debugMode :=
    (congrArg Prod.fst c.leavePause_tape :)
  have recorded :
      (if c.leavePause.debugMode then some c.leavePause.snapshot else none).isSome =
        c.debugMode := by
    rw [watched]
    cases c.debugMode <;> rfl
  cases result with
  | ok run =>
    have kept := visits.tape.trans c.leavePause_tape
    apply (comes_completeStep (c'.arrive node cancel) node _ run).mono
    intro o notes
    rw [recorded] at notes
    exact notes.recordsRun kept
  | error f =>
    have kept := visits.tape.trans c.leavePause_tape
    have given (before : Option Json) (noted : Instant) (on : before.isSome = c.debugMode) :
        Comes settings (failStep ((c'.arrive node cancel).noteFailure node before f noted) f)
          fun o => c.RecordsRun o.conversation := by
      apply (comes_failStep _ f).mono
      rintro o ⟨now, same⟩
      have notes : Conversation.Notes node before.isSome (c'.arrive node cancel)
          ((c'.arrive node cancel).noteFailure node before f noted) :=
        Conversation.noteFailure_notes
      rw [same]
      rw [on] at notes
      exact notes.giveUp.recordsRun kept
    dsimp only
    split
    · next unwatched =>
      rw [unwatched] at recorded
      exact given none default recorded
    · next before watched =>
      rw [watched] at recorded
      exact keeps_now.bind fun noted _ => given before noted recorded

/-- Whether a step with a conversation runs a node. -/
structure RunsNode (s : Situation) (c : Conversation) : Prop where
  ready : c.Ready
  calm : s.cancelRequests.contains c.id = false
  flow : (s.flows.get? c.flow).isSome

/-- A request that is picked up is on the conversation; otherwise the conversation is as it was, and
there was none or it was cancelled already. -/
theorem pickUpCancel_leaves (c : Conversation) (s : Situation) :
    (pickUpCancel c s).Ends fun c' s' => s'.settings = s.settings ∧ s'.flows = s.flows ∧
      ((c' = c ∧ (c.cancelled = false → s.cancelRequests.contains c.id = false)) ∨
        (c'.tape = c.tape ∧ c'.cancelled = true ∧ s.cancelRequests.contains c.id = true)) := by
  have taken : (takeCancel c.id s).Ends fun parked s' =>
      parked = s.cancelRequests.contains c.id ∧ s'.settings = s.settings ∧ s'.flows = s.flows :=
    ⟨rfl, rfl, rfl⟩
  apply Activity.meets_bind taken
  rintro parked s' ⟨rfl, settings, flows⟩
  split
  · next picks =>
    exact ⟨settings, flows, .inr ⟨rfl, rfl, (Bool.and_eq_true _ _ ▸ picks).1⟩⟩
  · next leaves =>
    refine ⟨settings, flows, .inl ⟨rfl, fun free => ?_⟩⟩
    simpa [free] using leaves

/-- What a step comes to, where `runs` says whether it runs a node. -/
def Recording (runs : Prop) (c : Conversation) (o : StepResult) : Prop :=
  (runs → c.RecordsRun o.conversation) ∧ (¬ runs → o.conversation.tape = c.tape)

theorem graph_run (flow : String) (s : Situation) : graph flow s =
    (match s.flows.get? flow with
      | some g => pure (.ok g)
      | none => pure (.error (.flowNotFound flow)) : Engine (Except Failure Graph)) s := rfl

theorem graph_found {flow : String} {g : Graph} {s : Situation}
    (found : s.flows.get? flow = some g) : graph flow s = .done s (.ok g) := by
  rw [graph_run, found]
  rfl

theorem graph_missing {flow : String} {s : Situation} (missing : s.flows.get? flow = none) :
    graph flow s = .done s (.error (.flowNotFound flow)) := by
  rw [graph_run, missing]
  rfl

/-- A step records the run of a node, if it runs one, and nothing else. -/
theorem advance_records (c : Conversation) (s : Situation) :
    (advance c s).Meets (fun t => t.settings = s.settings) (fun _ => True) fun o _ =>
      Recording (RunsNode s c) c o := by
  apply Activity.meets_bind (pickUpCancel_leaves c s).meets
  rintro c' s' ⟨settings, flows, left⟩
  have tape : c'.tape = c.tape := left.elim (fun same => congrArg Conversation.tape same.1) And.left
  have idle (unready : ¬ c'.Ready) : ¬ RunsNode s c := by
    intro runs
    obtain ⟨rfl, -⟩ | ⟨-, -, parked⟩ := left
    · exact unready runs.ready
    · exact absurd (parked.symm.trans runs.calm) (by simp)
  have rests (unready : ¬ c'.Ready) (action : Action) (next : Option String) :
      Recording (RunsNode s c) c ⟨c', action, next⟩ :=
    ⟨fun runs => absurd runs (idle unready), fun _ => tape⟩
  split
  · next waits => exact rests (fun ready => ready.not_awaiting waits) _ _
  next waits =>
  split
  · next ended => exact rests (fun ready => ready.not_completed ended) _ _
  next ended =>
  split
  · next cancelled =>
    exact rests (fun ready => absurd (cancelled.symm.trans ready.not_cancelled) (by simp)) _ _
  next goesOn =>
  have ready : c'.Ready := ⟨waits, ended, by simpa using goesOn⟩
  obtain ⟨rfl, calm⟩ | ⟨-, cancelled, -⟩ := left
  · cases found : s'.flows.get? c'.flow with
    | none =>
      have lost : ¬ RunsNode s c' := fun runs => by
        have registered := runs.flow
        rw [← flows, found] at registered
        cases registered
      rw [Activity.bind_run, graph_missing found]
      apply ((comes_failStep c' _).meets settings).mono (fun _ _ => trivial)
      rintro o - ⟨now, same⟩
      exact ⟨fun runs => absurd runs lost, fun _ => same ▸ rfl⟩
    | some g =>
      have runs : RunsNode s c' := ⟨ready, calm ready.not_cancelled, by rw [← flows, found]; rfl⟩
      rw [Activity.bind_run, graph_found found]
      apply ((comes_stepNode ready _).meets settings).mono (fun _ _ => trivial)
      intro o _ recorded
      exact ⟨fun _ => recorded, fun idle => absurd runs idle⟩
  · exact absurd cancelled goesOn

end Engine

end DialogueEngine
