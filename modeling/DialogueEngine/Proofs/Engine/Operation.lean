import DialogueEngine.Proofs.Engine.Turn
import DialogueEngine.Proofs.History.Basic

/-!
The operations in a regime. What an operation reads satisfies what is kept; all that it writes and
gives back is reached from there by the moves of a conversation, and so satisfies it again.
-/

namespace DialogueEngine.Engine

open Conversation (Engaged Moves Passes)

variable {r : Regime} {approves : Prop} {c : Conversation}

/-! ## Steps -/

theorem keeps_failStep (c : Conversation) (f : Failure) (kept : ∀ now, r.keeps (c.giveUp f now)) :
    Keeps r approves (failStep c f) fun o => r.keeps o.conversation := by
  apply keeps_now.bind
  intro now _
  apply (keeps_write (kept now)).bind
  intro _ _
  exact (keeps_publish _).bind fun _ _ => .pure (kept now)

theorem keeps_pickUpCancel (kept : r.keeps c) :
    Keeps r approves (pickUpCancel c) r.keeps := by
  apply (keeps_takeCancel c.id).bind
  intro parked _
  split
  · apply keeps_now.bind
    intro now _
    have cancelled := r.moves kept (.cancelled now)
    exact (keeps_write cancelled).bind fun _ _ => .pure cancelled
  · exact .pure kept

theorem keeps_completeStep {node : Node} {before : Option Json} {run : Visit}
    (kept : ∀ noted now, r.keeps (c.conclude node run before noted now))
    (lost : ¬ r.sure → ∀ f noted now later,
      r.keeps ((c.conclude node run before noted now).giveUp f later)) :
    Keeps r approves (completeStep node c before run) fun o => r.keeps o.conversation := by
  have written (noted now : Instant) : Keeps r approves
      (concluding (c.conclude node run before noted now) node run)
      fun o => r.keeps o.conversation := by
    apply (keeps_write (kept noted now)).bind
    intro result saved
    split
    · next f =>
      have unsure : ¬ r.sure := fun sure => by cases saved sure
      exact keeps_failStep _ f fun later => lost unsure f noted now later
    · exact (keeps_publish _).bind fun _ _ => .pure (kept noted now)
  unfold completeStep
  cases before with
  | none => exact keeps_now.bind fun now _ => written now now
  | some before =>
    exact keeps_now.bind fun noted _ => keeps_now.bind fun now _ => written noted now

/-- What is kept of a conversation is kept through the run of a node. -/
theorem keeps_stepNode {node : Node}
    (gate : r.gated → r.settings.approval.requireApproval = true ∨
      ∀ spec, node.spec = .process spec → spec.requireApproval = true)
    (kept : r.keeps c) (ready : c.Ready) :
    Keeps r approves (stepNode node c) fun o => r.keeps o.conversation := by
  apply (keeps_publish _).bind
  intro _ _
  apply (keeps_visit gate ⟨c, kept, ready, rfl⟩).bind
  intro visited visits
  obtain ⟨c', result⟩ := visited
  apply (keeps_takeCancel _).bind
  intro cancel _
  cases result with
  | ok run =>
    refine keeps_completeStep (c := c'.arrive node cancel) ?_ ?_
    · exact fun noted now => r.moves kept (.stepped ready visits cancel _ noted now)
    · exact fun unsure f noted now later =>
        r.moves kept (.unsaved unsure ready visits cancel _ f noted now later)
  | error f =>
    have given (before : Option Json) (noted now : Instant) :
        r.keeps (((c'.arrive node cancel).noteFailure node before f noted).giveUp f now) :=
      r.moves kept (.failed ready visits cancel before f noted now)
    dsimp only
    split
    · exact keeps_failStep _ f fun now => given none now now
    · next before same =>
      exact keeps_now.bind fun noted _ => keeps_failStep _ f (given (some _) noted)

theorem keeps_advance (kept : r.keeps c) :
    Keeps r approves (advance c) fun o => r.keeps o.conversation := by
  apply (keeps_pickUpCancel kept).bind
  intro c kept
  split
  · exact .pure kept
  next awaiting =>
  split
  · exact .pure kept
  next completed =>
  split
  · exact .pure kept
  next cancelled =>
  have ready : c.Ready := ⟨awaiting, completed, by simpa using cancelled⟩
  apply (keeps_graph c.flow).bind
  intro found gated
  split
  · next f => exact keeps_failStep c f fun now => r.moves kept (.lost ready f now)
  · next g =>
    refine keeps_stepNode (fun needs => ?_) kept ready
    exact (gated g rfl needs).imp id fun all => all _ (g.nodeAt_mem _)

/-- A step with a conversation at hand is refused with the failure noted on it. -/
theorem keeps_stepWith (kept : r.keeps c)
    (refused : ∀ f, r.keeps { c with lastError := some (.ofFailure f) }) :
    Keeps r approves (stepWith c) fun o => r.keeps o.conversation := by
  unfold stepWith
  dsimp only
  split
  · exact .pure (refused _)
  · apply (keeps_tryClaim c.id).bind
    intro free _
    split
    · apply (keeps_advance kept).bind
      intro o kept'
      exact (keeps_release c.id).bind fun _ _ => .pure kept'
    · exact .pure (refused _)

theorem keeps_step (id : String) :
    Keeps r approves (step id) (Given fun o => r.keeps o.conversation) := by
  refine keeps_claiming ((keeps_load id).bind fun loaded given => ?_)
  split
  · exact .pure (.error _)
  · next c => exact (keeps_advance (given c rfl)).bind fun o kept => .pure (.ok kept)

theorem keeps_keepGoing (budget : Nat) {o : StepResult} (kept : r.keeps o.conversation) :
    Keeps r approves (keepGoing budget o) fun o => r.keeps o.conversation := by
  induction budget generalizing o with
  | zero => exact .pure kept
  | succ budget ih =>
    unfold keepGoing
    split
    · exact (keeps_advance kept).bind fun o kept => ih kept
    · exact .pure kept

theorem keeps_run (id : String) (most : Nat) :
    Keeps r approves (run id most) (Given fun o => r.keeps o.conversation) := by
  refine keeps_claiming ((keeps_load id).bind fun loaded given => ?_)
  split
  · exact .pure (.error _)
  · next c =>
    apply (keeps_advance (given c rfl)).bind
    intro o kept
    exact (keeps_keepGoing _ kept).bind fun o kept => .pure (.ok kept)

/-! ## Other operations -/

theorem keeps_save (kept : r.keeps c) : Keeps r approves (save c) (Given r.keeps) := by
  apply (keeps_write kept).bind
  intro written _
  split
  · exact .pure (.error _)
  · exact .pure (.ok kept)

theorem keeps_start (id : Option String) (flow : String) (message : Option String) :
    Keeps r approves (start id flow message) (Given r.keeps) := by
  apply (keeps_graph flow).bind
  intro found _
  split
  · exact .pure (.error _)
  extract_lets begins
  have each (id : String) : Keeps r approves (begins id) (Given r.keeps) := by
    dsimp only [begins]
    split
    · exact .pure (.error _)
    refine keeps_claiming ((keeps_read id).bind fun found _ => ?_)
    split
    · exact .pure (.error _)
    · exact .pure (.error _)
    · refine keeps_situation.bind fun s _ => keeps_now.bind fun now _ => ?_
      split
      · exact keeps_save (r.fresh id flow now _)
      · exact keeps_stamp.bind fun s _ => keeps_save (r.greeted id flow now _ rfl s.instant)
  clear_value begins
  have chosen (id : String) : Keeps r approves (pure id : Engine String) fun _ => True :=
    .pure trivial
  cases id with
  | some id => exact (chosen id).bind fun id _ => each id
  | none => exact keeps_stamp.bind fun s _ => (chosen s.id).bind fun id _ => each id

theorem keeps_post (id text : String) : Keeps r approves (post id text) (Given r.keeps) := by
  refine keeps_claiming ((keeps_load id).bind fun loaded given => ?_)
  split
  · exact .pure (.error _)
  next c =>
  have kept := given c rfl
  split
  · exact .pure (.error _)
  next free =>
  split
  · exact .pure (.error _)
  apply keeps_stamp.bind
  intro s _
  dsimp only
  split
  · apply (keeps_graph _).bind
    intro found _
    split
    · exact .pure (.error _)
    · next g _ => exact keeps_save (r.moves kept (.rewound free rfl s.instant g))
  · next goesOn =>
    exact keeps_save (r.moves kept (.posted free rfl s.instant (by simpa using goesOn)))

theorem keeps_cancel (id : String) : Keeps r approves (cancel id) fun _ => True := by
  apply (keeps_tryClaim id).bind
  intro free _
  split
  · apply (keeps_load id).bind
    intro loaded given
    split
    · exact (keeps_release id).bind fun _ _ => .pure trivial
    · next c =>
      apply keeps_now.bind
      intro now _
      apply (keeps_write (r.moves (given c rfl) (.cancelled now))).bind
      intro _ _
      exact (keeps_release id).bind fun _ _ => .pure trivial
  · exact (keeps_parkCancel id).bind fun _ _ => .pure trivial

theorem keeps_setRecording (id : String) (enabled : Bool) :
    Keeps r approves (setRecording id enabled) (Given r.keeps) := by
  refine keeps_claiming ((keeps_load id).bind fun loaded given => ?_)
  split
  · exact .pure (.error _)
  · next c =>
    apply keeps_now.bind
    intro now _
    exact keeps_save (r.moves (given c rfl) (.recording enabled now))

/-! ## Decisions -/

theorem keeps_decide (c : Conversation) (call : ToolCall) {decision : Decision}
    (may : decision = .approve → r.gated → approves) :
    Keeps r approves (decide c call decision) fun _ => True := by
  cases decision with
  | approve =>
    refine (keeps_invoke c.id call fun _ => may rfl).bind fun outcome _ => ?_
    split <;> exact .pure trivial
  | reject reason => exact keeps_situation.bind fun s _ => .pure trivial

theorem keeps_resolve (id call : String) {decision : Decision}
    (may : decision = .approve → r.gated → approves) :
    Keeps r approves (resolve id call decision) (Given r.keeps) := by
  refine keeps_claiming ((keeps_load id).bind fun loaded given => ?_)
  split
  · exact .pure (.error _)
  next c =>
  apply keeps_now.bind
  intro now _
  split
  · exact .pure (.error _)
  next taken rest found =>
  refine (keeps_decide _ _ may).bind fun result _ => keeps_stamp.bind fun s _ => ?_
  have answered (m : Message) (role : m.role = .tool) (answers : m.toolCallId = some taken.id) :
      Keeps r approves (telling (rest.push m s.instant) taken.id (decision = .approve))
        (Given r.keeps) :=
    keeps_telling (r.moves (given c rfl) (.resolved found role answers s.instant)) _ _
  dsimp only
  split
  · exact answered _ rfl rfl
  · exact answered _ rfl rfl

/-! ## Cursors -/

theorem keeps_trace (id : String) : Keeps r approves (trace id) fun _ => True := by
  apply (keeps_load id).bind
  intro loaded _
  split <;> exact .pure trivial

theorem keeps_cursor (id : String) (size : Nat) :
    Keeps r approves (cursor id size) fun _ => True := by
  unfold cursor
  split
  · exact .pure trivial
  · exact keeps_situation.bind fun s _ => .pure trivial

theorem keeps_setCursor (id : String) (place : Nat) :
    Keeps r approves (setCursor id place) fun _ => True :=
  keeps_update (fun _ => rfl) (fun _ => rfl) fun _ => rfl

theorem keeps_dropCursor (id : String) : Keeps r approves (dropCursor id) fun _ => True :=
  keeps_update (fun _ => rfl) (fun _ => rfl) fun _ => rfl

theorem keeps_currentRecord (id : String) :
    Keeps r approves (currentRecord id) fun _ => True := by
  apply (keeps_trace id).bind
  intro records _
  split
  · exact .pure trivial
  · apply (keeps_cursor id _).bind
    intro place _
    split <;> exact .pure trivial

theorem keeps_goBack (id : String) : Keeps r approves (goBack id) fun _ => True := by
  apply (keeps_trace id).bind
  intro records _
  split
  · exact .pure trivial
  · apply (keeps_cursor id _).bind
    intro place _
    split
    · exact .pure trivial
    · exact (keeps_setCursor id _).bind fun _ _ => .pure trivial

theorem keeps_stepBeyond (id : String) (recorded : Nat) :
    Keeps r approves (stepBeyond id recorded) fun _ => True := by
  apply (keeps_step id).bind
  intro outcome _
  split
  · exact .pure trivial
  · exact (keeps_dropCursor id).bind fun _ _ => .pure trivial

theorem keeps_goForward (id : String) : Keeps r approves (goForward id) fun _ => True := by
  apply (keeps_trace id).bind
  intro records _
  split
  · exact .pure trivial
  · apply (keeps_cursor id _).bind
    intro place _
    split
    · exact keeps_stepBeyond id _
    · split
      · exact (keeps_setCursor id _).bind fun _ _ => .pure trivial
      · exact keeps_stepBeyond id _

end DialogueEngine.Engine

/-! ## Undertakings -/

namespace DialogueEngine

open Engine (Given Keeps)

variable {r : Regime} {s : Situation}

/-- What an outcome gives back is kept. -/
def Operation.Outcome.Kept (keeps : Conversation → Prop) : Operation.Outcome → Prop
  | .conversation c => keeps c
  | .step o => keeps o.conversation
  | .done | .record _ => True

/-- The conversation that an outcome gives back. -/
def Operation.Outcome.conversation? : Operation.Outcome → Option Conversation
  | .conversation c => some c
  | .step o => some o.conversation
  | .done | .record _ => none

theorem Operation.Outcome.Kept.of_conversation? {keeps : Conversation → Prop}
    {outcome : Operation.Outcome} {c : Conversation} (kept : outcome.Kept keeps)
    (given : outcome.conversation? = some c) : keeps c := by
  cases outcome with
  | done => cases given
  | conversation c' => cases given; exact kept
  | step o => cases given; exact kept
  | record r => cases given

namespace Undertaking

/-- Approving is the one undertaking that asks providers to run tools where all is gated. -/
def Approves (u : Undertaking) : Prop := ∃ id call, u = .operation (.resolve id call .approve)

end Undertaking

namespace Engine

variable {α : Type} {approves : Prop} {x : Engine (Except Failure α)} {f : α → Operation.Outcome}

/-- What an operation gives back is kept if it is kept under the name of an outcome. -/
theorem Keeps.outcome {post : α → Prop} (keeps : Keeps r approves x (Given post))
    (kept : ∀ a, post a → (f a).Kept r.keeps) :
    Keeps r approves (do return (← x).map f) (Given (·.Kept r.keeps)) :=
  keeps.bind fun _ given => .pure (given.map kept)

/-- There are outcomes of which nothing is kept. -/
theorem Keeps.silent {post : Except Failure α → Prop} (keeps : Keeps r approves x post)
    (always : ∀ a, (f a).Kept r.keeps) :
    Keeps r approves (do return (← x).map f) (Given (·.Kept r.keeps)) :=
  keeps.bind fun _ _ => .pure (Given.of_always always)

end Engine

/-- Every operation keeps to the regime. -/
theorem Engine.keeps_perform (op : Operation) :
    Keeps r (Undertaking.operation op).Approves op.perform (Given (·.Kept r.keeps)) := by
  cases op with
  | start id flow message => exact (keeps_start id flow message).outcome fun _ kept => kept
  | post id text => exact (keeps_post id text).outcome fun _ kept => kept
  | step id => exact (keeps_step id).outcome fun _ kept => kept
  | run id most => exact (keeps_run id most).outcome fun _ kept => kept
  | cancel id => exact (keeps_cancel id).silent fun _ => trivial
  | setRecording id enabled => exact (keeps_setRecording id enabled).outcome fun _ kept => kept
  | resolve id call decision =>
    have may : decision = .approve → r.gated →
        (Undertaking.operation (.resolve id call decision)).Approves := by
      rintro rfl -
      exact ⟨id, call, rfl⟩
    exact (keeps_resolve id call may).outcome fun _ kept => kept
  | enableTrace id => exact (keeps_setRecording id true).outcome fun _ kept => kept
  | resumeTrace id =>
    have resumed : Keeps r (Undertaking.operation (.resumeTrace id)).Approves (resumeTrace id)
        (Given r.keeps) := (keeps_dropCursor id).bind fun _ _ => keeps_setRecording id false
    exact resumed.outcome fun _ kept => kept
  | currentRecord id => exact (keeps_currentRecord id).silent fun _ => trivial
  | goBack id => exact (keeps_goBack id).silent fun _ => trivial
  | goForward id => exact (keeps_goForward id).silent fun _ => trivial

/-- Registering a flow keeps to the regime; where all is gated the flow has to be, too. -/
theorem Engine.keeps_register {approves : Prop} (flow : AuthoredFlow)
    (gate : r.gated → r.settings.approval.requireApproval = true ∨
      ∀ g, flow.toGraph = .ok g → g.Gated) :
    Keeps r approves (register flow) fun _ => True := by
  unfold register
  split
  · exact .pure trivial
  next g built =>
  intro s orderly
  refine ⟨⟨orderly.holds, orderly.settings, fun gated => ?_, orderly.accepts⟩, trivial⟩
  refine (orderly.gated gated).elim .inl fun all => (gate gated).imp id fun fits id g' found => ?_
  rw [Table.get?_insert] at found
  split at found
  · obtain rfl : g = g' := by simpa using found
    exact fits g built
  · exact all id g' found

/-- What an undertaking has to bring along in a regime. -/
def Undertaking.Fits (r : Regime) : Undertaking → Prop
  | .operation _ => True
  | .registration flow => r.gated → r.settings.approval.requireApproval = true ∨
      ∀ g, flow.toGraph = .ok g → g.Gated
  | .stepWith c => r.keeps c ∧ ∀ f, r.keeps { c with lastError := some (.ofFailure f) }

theorem Undertaking.UsesStore.fits {u : Undertaking} (stored : u.UsesStore)
    (ungated : ¬ r.gated) : u.Fits r := by
  cases u with
  | operation op => exact trivial
  | registration flow => exact fun gated => absurd gated ungated
  | stepWith c => exact False.elim stored

/-- What happens in a regime: situations are orderly, questions are posed and outcomes kept. -/
abbrev Happening.Keeps (r : Regime) (h : Happening) : Prop :=
  h.Obeys r.Orderly (fun u => r.Poses u.Approves) fun _ => Given (·.Kept r.keeps)

theorem Undertaking.Fits.obeys {u : Undertaking} (fits : u.Fits r) (orderly : r.Orderly s) :
    Work.Obeys r.Orderly (fun u => r.Poses u.Approves) (fun _ => Given (·.Kept r.keeps)) u
      (u.perform s) := by
  have keeps : Engine.Keeps r u.Approves u.perform (Given (·.Kept r.keeps)) := by
    cases u with
    | operation op => exact Engine.keeps_perform op
    | registration flow =>
      exact (Engine.keeps_register flow fits).silent fun _ => trivial
    | stepWith c =>
      exact (Engine.keeps_stepWith fits.1 fits.2).bind fun o kept => .pure (.ok kept)
  exact keeps s orderly

/-- Before the first operation all is orderly. -/
theorem Regime.orderly_fresh (r : Regime) {store : Store} (new : store.IsNew)
    (accepts : r.sure → store.Accepts) (clock : Clock) :
    r.Orderly (.fresh r.settings store clock) where
  holds := new.holds r.keeps
  settings := rfl
  gated := by
    refine fun _ => .inr fun flow g found => ?_
    rw [Situation.fresh, Table.get?_empty] at found
    cases found
  accepts := accepts

/-- A history keeps to a regime as long as nothing is begun that does not fit. -/
theorem Unfolds.keeps {admits : List Happening → Situation → Undertaking → Prop}
    {history : List Happening} {scene : Scene} (r : Regime) (orderly : r.Orderly s)
    (fits : ∀ history s u, (∀ h ∈ history, h.Keeps r) → admits history s u → u.Fits r)
    (unfolds : Unfolds admits s history scene) :
    (∀ h ∈ history, h.Keeps r) ∧
      scene.Obeys r.Orderly (fun u => r.Poses u.Approves) fun _ => Given (·.Kept r.keeps) :=
  unfolds.obeys orderly fun history s u past admitted orderly =>
    (fits history s u past admitted).obeys orderly

end DialogueEngine
