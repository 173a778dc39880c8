import DialogueEngine.Proofs.Conversation.Coherence

/-!
What is pending. Where everything can be written, the calls that a transcript leaves open are the
calls that are pending; and whatever is pending names a tool of a provider.
-/

namespace DialogueEngine.Conversation

open Transcript (Leads)

variable {c c' : Conversation}

theorem reopen_id (c : Conversation) : c.reopen.id = c.id := by
  unfold reopen
  split <;> rfl

theorem reopen_cancelled (c : Conversation) : c.reopen.cancelled = c.cancelled := by
  unfold reopen
  split <;> rfl

theorem reopen_messages (c : Conversation) : c.reopen.messages = c.messages := by
  unfold reopen
  split <;> rfl

theorem reopen_pending (c : Conversation) : c.reopen.pending = c.pending := by
  unfold reopen
  split <;> rfl

/-! ## Open calls -/

/-- The transcript leaves open the calls that are pending, and no others. -/
def Balanced (c : Conversation) : Prop := Leads [] c.messages (c.pending.map (·.id))

/-- A conversation whose pending calls are those that its transcript leaves open, and that waits for
them. -/
structure Accountable (c : Conversation) : Prop where
  pauses : c.Pauses
  balanced : c.Balanced

theorem Balanced.closed (balanced : c.Balanced) (none : c.pending = []) :
    Leads [] c.messages [] := by
  simpa only [Balanced, none, List.map_nil] using balanced

theorem Balanced.of_closed (closed : Leads [] c.messages []) (none : c.pending = []) :
    c.Balanced := by
  simpa only [Balanced, none, List.map_nil] using closed

theorem Engaged.leads {left : List String} (engaged : Engaged c c' left)
    (closed : Leads [] c.messages []) : Leads [] c'.messages left := by
  obtain ⟨added, grown, leads⟩ := engaged.grown
  rw [grown]
  exact closed.append leads

theorem Passes.balanced {node : Node} {action : Action} (passes : Passes node c c' action)
    (none : c.pending = []) (closed : Leads [] c.messages []) : c'.Balanced := by
  cases passes with
  | start kind prompt now => exact .of_closed closed none
  | turn kind engaged action =>
    exact .of_closed (engaged.leads closed) (engaged.pending.trans none)
  | @paused spec c' calls kind engaged some approvable route now =>
    have calling : calls.isEmpty = false := by simpa using some
    simpa [Balanced, pauseFor, calling] using engaged.leads closed
  | listing kind engaged same =>
    exact .of_closed (engaged.leads closed) (engaged.pending.trans none)
  | finish kind now => exact .of_closed closed none

theorem Balanced.push_user {m : Message} (balanced : c.Balanced) (none : c.pending = [])
    (role : m.role = .user) (now : Instant) : (c.push m now).Balanced :=
  .of_closed ((balanced.closed none).append (.user role (.refl []))) none

theorem Moves.balanced {sure : Prop} (saved : sure) (moves : Moves sure c c')
    (accountable : c.Accountable) : c'.Balanced := by
  obtain ⟨pauses, balanced⟩ := accountable
  have closed (free : c.status ≠ .awaitingApproval) : Leads [] c.messages [] :=
    balanced.closed (pauses.pending_eq_nil free)
  cases moves with
  | cancelled now => exact balanced
  | recording enabled now => exact balanced
  | posted free role now goesOn =>
    rw [Balanced, reopen_messages, reopen_pending]
    exact balanced.push_user (pauses.pending_eq_nil free) role now
  | rewound free role now g =>
    rw [Balanced, reopen_messages, reopen_pending]
    exact balanced.push_user (pauses.pending_eq_nil free) role now
  | @resolved call taken rest now found m role answers later =>
    obtain ⟨others, inside, rfl⟩ := takeCall_spec found
    have opened := (extract_spec inside).1.map (·.id)
    exact balanced.answer role answers opened
  | lost ready f now => exact .of_closed (closed ready.not_awaiting) rfl
  | stepped ready passes cancel before noted now =>
    rw [Balanced, conclude_messages, conclude_pending, arrive_messages, arrive_pending]
    apply passes.balanced (ready.leavePause_pending pauses)
    rw [leavePause_messages]
    exact closed ready.not_awaiting
  | @failed ready node c' engaged cancel before f noted now =>
    refine .of_closed ?_ rfl
    have led := engaged.leads (leavePause_messages c ▸ closed ready.not_awaiting)
    simpa [giveUp, fail] using led
  | unsaved unsure ready passes cancel before f noted now later => exact absurd saved unsure

theorem Moves.accountable {sure : Prop} (saved : sure) (moves : Moves sure c c')
    (accountable : c.Accountable) : c'.Accountable :=
  ⟨moves.pauses accountable.pauses, moves.balanced saved accountable⟩

/-! ## Calls that wait for approval -/

/-- A conversation that waits for its pending calls, each of which names a tool of a provider. -/
structure Guarded (c : Conversation) : Prop where
  pauses : c.Pauses
  approvable : ∀ call ∈ c.pending, call.Approvable

theorem Guarded.of_none (pauses : c.Pauses) (none : c.pending = []) : c.Guarded :=
  ⟨pauses, fun _ member => absurd (none ▸ member) List.not_mem_nil⟩

theorem Passes.approvable {node : Node} {action : Action} (passes : Passes node c c' action)
    (none : c.pending = []) : ∀ call ∈ c'.pending, call.Approvable := by
  have nothing {d : Conversation} (same : d.pending = c.pending) :
      ∀ call ∈ d.pending, call.Approvable := by simp [same, none]
  cases passes with
  | start kind prompt now => exact nothing rfl
  | turn kind engaged action => exact nothing engaged.pending
  | @paused spec c' calls kind engaged some approvable route now =>
    have calling : calls.isEmpty = false := by simpa using some
    simpa [pauseFor, calling] using approvable
  | listing kind engaged same => exact nothing engaged.pending
  | finish kind now => exact nothing rfl

theorem Moves.guarded {sure : Prop} (moves : Moves sure c c') (guarded : c.Guarded) :
    c'.Guarded := by
  have pauses := moves.pauses guarded.pauses
  cases moves with
  | cancelled now => exact ⟨pauses, guarded.approvable⟩
  | recording enabled now => exact ⟨pauses, guarded.approvable⟩
  | posted free role now goesOn =>
    exact .of_none pauses ((reopen_pending _).trans (guarded.pauses.pending_eq_nil free))
  | rewound free role now g =>
    exact .of_none pauses ((reopen_pending _).trans (guarded.pauses.pending_eq_nil free))
  | @resolved call taken rest now found m role answers later =>
    obtain ⟨others, inside, rfl⟩ := takeCall_spec found
    refine ⟨pauses, fun other member => guarded.approvable other ?_⟩
    exact (extract_spec inside).1.symm.subset (List.mem_cons_of_mem _ member)
  | lost ready f now => exact .of_none pauses rfl
  | stepped ready passes cancel before noted now =>
    refine ⟨pauses, ?_⟩
    rw [conclude_pending, arrive_pending]
    exact passes.approvable (ready.leavePause_pending guarded.pauses)
  | failed ready engaged cancel before f noted now => exact .of_none pauses rfl
  | unsaved unsure ready passes cancel before f noted now later => exact .of_none pauses rfl

end DialogueEngine.Conversation
