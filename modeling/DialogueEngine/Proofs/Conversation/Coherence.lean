import DialogueEngine.Proofs.Conversation.Moves

/-!
What the moves of a conversation keep together: the calls that are pending and the wait for
approval, the failure that is noted and the status of an error, the latest answer and completion.
A step runs a node only where nothing is pending and no failure is noted.
-/

namespace DialogueEngine.Conversation

/-- A conversation whose status, calls, failure and answer belong together. -/
structure Coherent (c : Conversation) : Prop where
  pauses : c.Pauses
  fails : c.lastError ≠ none ↔ c.status = .error
  answers : c.status = .completed → c.lastResponse = (c.lastWithRole .assistant).map (·.content)

variable {c c' : Conversation}

/-! ## Calls that are taken off -/

theorem extract_spec {id : String} {calls rest : List ToolCall} {taken : ToolCall}
    (found : extract id calls = some (taken, rest)) :
    calls.Perm (taken :: rest) ∧ taken.id = id := by
  induction calls generalizing rest with
  | nil => cases found
  | cons call calls ih =>
    by_cases same : call.id = id
    · rw [extract, if_pos same] at found
      cases found
      exact ⟨.refl _, same⟩
    · rw [extract, if_neg same] at found
      obtain ⟨⟨inner, others⟩, deeper, placed⟩ := Option.map_eq_some_iff.1 found
      cases placed
      obtain ⟨perm, named⟩ := ih deeper
      exact ⟨(perm.cons call).trans (.swap taken call others), named⟩

theorem takeCall_spec {id : String} {now : Instant} {taken : ToolCall} {rest : Conversation}
    (found : c.takeCall id now = some (taken, rest)) :
    ∃ others, extract id c.pending = some (taken, others) ∧
      rest = { c with
        pending := others
        status := if others.isEmpty ∧ c.status = .awaitingApproval then Status.running
          else c.status
        updatedAt := now } := by
  obtain ⟨⟨call, others⟩, inside, same⟩ := Option.map_eq_some_iff.1 found
  cases same
  exact ⟨others, inside, rfl⟩

theorem takeCall_awaiting {id : String} {now : Instant} {taken : ToolCall} {rest : Conversation}
    (pauses : c.Pauses) (found : c.takeCall id now = some (taken, rest)) :
    c.status = .awaitingApproval := by
  obtain ⟨others, inside, -⟩ := takeCall_spec found
  have perm := (extract_spec inside).1
  refine pauses.1 fun none => ?_
  simp [none] at perm

/-! ## Pauses -/

theorem arrive_pauses (pauses : c.Pauses) (node : Node) (cancel : Bool) :
    (c.arrive node cancel).Pauses := by
  simpa only [Pauses, arrive_pending, arrive_status] using pauses

theorem conclude_pauses (pauses : c.Pauses) (node : Node) (run : Visit) (before : Option Json)
    (noted now : Instant) : (c.conclude node run before noted now).Pauses := by
  rw [Pauses, conclude_pending, conclude_status]
  by_cases paused : before.isSome ∧ c.status = .running
  · have free : c.pending = [] := pauses.pending_eq_nil (by simp [paused.2])
    simp [paused, free]
  · rw [if_neg paused]
    exact pauses

theorem giveUp_pauses (c : Conversation) (f : Failure) (now : Instant) : (c.giveUp f now).Pauses :=
  .of_free rfl (by simp [giveUp, fail])

theorem reopen_pauses (none : c.pending = []) (free : c.status ≠ .awaitingApproval) :
    c.reopen.Pauses := by
  unfold reopen
  split
  · exact .of_free none (by simp)
  · exact .of_free none free

theorem Passes.pauses {node : Node} {action : Action} (passes : Passes node c c' action)
    (none : c.pending = []) (running : c.status = .running) : c'.Pauses := by
  have free : c.status ≠ .awaitingApproval := by simp [running]
  cases passes with
  | start kind prompt now => exact .of_free none free
  | turn kind engaged action =>
    exact .of_free (engaged.pending.trans none) (engaged.status ▸ free)
  | @paused spec c' calls kind engaged some approvable route now =>
    have calling : calls.isEmpty = false := by simpa using some
    simp [Pauses, pauseFor, calling, some]
  | listing kind engaged same =>
    exact .of_free (engaged.pending.trans none) (engaged.status ▸ free)
  | finish kind now => exact .of_free none (by simp [Conversation.finish])

theorem Ready.leavePause_pending (ready : c.Ready) (pauses : c.Pauses) :
    c.leavePause.pending = [] := by
  rw [Conversation.leavePause_pending]
  exact pauses.pending_eq_nil ready.not_awaiting

/-- Every move keeps calls pending exactly while approval is awaited. -/
theorem Moves.pauses {sure : Prop} (moves : Moves sure c c') (pauses : c.Pauses) : c'.Pauses := by
  cases moves with
  | cancelled now => exact pauses
  | recording enabled now =>
    simp only [Pauses, withRecording, touch]
    split
    · next stops =>
      have paused : c.status = .pausedDebug := by simp_all
      simp [pauses.pending_eq_nil (by simp [paused])]
    · exact pauses
  | posted free role now goesOn => exact reopen_pauses (pauses.pending_eq_nil free) free
  | rewound free role now g => exact reopen_pauses (pauses.pending_eq_nil free) free
  | @resolved call taken rest now found m role answers later =>
    have awaiting := takeCall_awaiting pauses found
    obtain ⟨others, -, rfl⟩ := takeCall_spec found
    cases others <;> simp [Pauses, push, awaiting]
  | lost ready f now => exact giveUp_pauses ..
  | stepped ready passes cancel before noted now =>
    have passed := passes.pauses (ready.leavePause_pending pauses) ready.leavePause_status
    exact conclude_pauses (arrive_pauses passed ..) ..
  | failed ready engaged cancel before f noted now => exact giveUp_pauses ..
  | unsaved unsure ready passes cancel before f noted now later => exact giveUp_pauses ..

/-! ## Failures and answers -/

theorem arrive_coherent (coherent : c.Coherent) (node : Node) (cancel : Bool) :
    (c.arrive node cancel).Coherent where
  pauses := arrive_pauses coherent.pauses node cancel
  fails := by simpa only [arrive_lastError, arrive_status] using coherent.fails
  answers := by
    simpa only [arrive_status, arrive_lastResponse, lastWithRole, arrive_messages] using
      coherent.answers

theorem conclude_coherent (coherent : c.Coherent) (node : Node) (run : Visit)
    (before : Option Json) (noted now : Instant) :
    (c.conclude node run before noted now).Coherent where
  pauses := conclude_pauses coherent.pauses ..
  fails := by
    rw [conclude_lastError, conclude_status]
    by_cases paused : before.isSome ∧ c.status = .running
    · simpa [paused] using coherent.fails
    · rw [if_neg paused]
      exact coherent.fails
  answers := by
    rw [conclude_lastResponse, conclude_status, lastWithRole, conclude_messages]
    by_cases paused : before.isSome ∧ c.status = .running
    · simp [paused]
    · rw [if_neg paused]
      exact coherent.answers

theorem giveUp_coherent (c : Conversation) (f : Failure) (now : Instant) :
    (c.giveUp f now).Coherent where
  pauses := giveUp_pauses c f now
  fails := by simp [giveUp, fail]
  answers := by simp [giveUp, fail]

/-- A conversation that goes on has nothing to keep together. -/
theorem Coherent.of_running (none : c.pending = []) (running : c.status = .running)
    (unfailed : c.lastError = Option.none) : c.Coherent where
  pauses := .of_free none (by simp [running])
  fails := by simp [unfailed, running]
  answers := by simp [running]

theorem Coherent.lastError_eq_none (coherent : c.Coherent) (sound : c.status ≠ .error) :
    c.lastError = none :=
  Decidable.byContradiction fun some => sound (coherent.fails.1 some)

theorem Coherent.leavePause_lastError (coherent : c.Coherent) :
    c.leavePause.lastError = none := by
  unfold leavePause
  split
  · rfl
  · next other => exact coherent.lastError_eq_none fun error => other (.inr error)

theorem Passes.coherent {node : Node} {action : Action} (passes : Passes node c c' action)
    (none : c.pending = []) (running : c.status = .running) (unfailed : c.lastError = Option.none) :
    c'.Coherent := by
  have pauses := passes.pauses none running
  cases passes with
  | start kind prompt now => exact .of_running none running unfailed
  | turn kind engaged action =>
    exact .of_running (engaged.pending.trans none) (engaged.status.trans running)
      (engaged.lastError.trans unfailed)
  | @paused spec c' calls kind engaged some approvable route now =>
    have calling : calls.isEmpty = false := by simpa using some
    exact ⟨pauses, by simp [pauseFor, calling, engaged.lastError, unfailed],
      by simp [pauseFor, calling]⟩
  | listing kind engaged same =>
    exact .of_running (engaged.pending.trans none) (engaged.status.trans running)
      (engaged.lastError.trans unfailed)
  | finish kind now => exact ⟨pauses, by simp [Conversation.finish, unfailed], fun _ => rfl⟩

theorem reopen_coherent (none : c.pending = []) (free : c.status ≠ .awaitingApproval)
    (fails : c.lastError ≠ Option.none ↔ c.status = .error) : c.reopen.Coherent where
  pauses := reopen_pauses none free
  fails := by
    unfold reopen
    split
    · simp
    · exact fails
  answers := by
    unfold reopen
    split
    · simp
    · next other => exact fun completed => absurd (.inl completed) other

theorem Moves.coherent {sure : Prop} (moves : Moves sure c c') (coherent : c.Coherent) :
    c'.Coherent := by
  have pauses := moves.pauses coherent.pauses
  cases moves with
  | cancelled now => exact ⟨pauses, coherent.fails, coherent.answers⟩
  | recording enabled now =>
    simp only [withRecording, touch] at pauses ⊢
    split at pauses
    · next stops =>
      have paused : c.status = .pausedDebug := by simp_all
      rw [if_pos stops]
      exact .of_running (coherent.pauses.pending_eq_nil (by simp [paused])) rfl
        (coherent.lastError_eq_none (by simp [paused]))
    · next goesOn =>
      rw [if_neg goesOn]
      exact ⟨pauses, coherent.fails, coherent.answers⟩
  | posted free role now goesOn =>
    exact reopen_coherent (coherent.pauses.pending_eq_nil free) free coherent.fails
  | rewound free role now g =>
    exact reopen_coherent (coherent.pauses.pending_eq_nil free) free coherent.fails
  | @resolved call taken rest now found m role answers later =>
    have awaiting := takeCall_awaiting coherent.pauses found
    have unfailed := coherent.lastError_eq_none (by simp [awaiting])
    obtain ⟨others, -, rfl⟩ := takeCall_spec found
    refine ⟨pauses, ?_, ?_⟩ <;> cases others <;> simp [push, awaiting, unfailed]
  | lost ready f now => exact giveUp_coherent ..
  | stepped ready passes cancel before noted now =>
    have passed := passes.coherent (ready.leavePause_pending coherent.pauses)
      ready.leavePause_status coherent.leavePause_lastError
    exact conclude_coherent (arrive_coherent passed ..) ..
  | failed ready engaged cancel before f noted now => exact giveUp_coherent ..
  | unsaved unsure ready passes cancel before f noted now later => exact giveUp_coherent ..

end DialogueEngine.Conversation
