import DialogueEngine.Proofs.Engine.Upkeep

/-!
Operations that fail. Whatever an operation had begun when it fails, what is stored, the flows that
are registered and the claims are as it found them: nothing is written before the last thing that
can fail, and a claim is given back on every way out.
-/

namespace DialogueEngine

namespace Situation

/-- What is stored, the flows that are registered and the claims are as they were. -/
structure Unaltered (s s' : Situation) : Prop where
  backing : s'.store.backing = s.store.backing
  flows : s'.flows = s.flows
  claimed : s'.claimed = s.claimed

variable {s s' s'' : Situation} {id : String}

theorem Unaltered.refl (s : Situation) : Unaltered s s := ⟨rfl, rfl, rfl⟩

theorem Unaltered.trans (first : Unaltered s s') (second : Unaltered s' s'') : Unaltered s s'' where
  backing := second.backing.trans first.backing
  flows := second.flows.trans first.flows
  claimed := second.claimed.trans first.claimed

/-- The run of a node alters nothing. -/
theorem still_unaltered : Still Unaltered where
  refl := .refl
  trans := .trans
  published := fun _ _ _ => ⟨rfl, rfl, rfl⟩
  ticked := fun _ => ⟨rfl, rfl, rfl⟩

theorem unaltered_get (id : String) (s : Situation) :
    Unaltered s { s with store := (s.store.get id).2 } :=
  ⟨Store.backing_get id s.store, rfl, rfl⟩

/-- A conversation that was free and is released is as free as before. -/
theorem Unaltered.releasing (free : id ∉ s.claimed)
    (unaltered : Unaltered { s with claimed := id :: s.claimed } s') :
    Unaltered s (Engine.releasing id s') where
  backing := unaltered.backing
  flows := unaltered.flows
  claimed := by
    have others : s.claimed.filter (· != id) = s.claimed :=
      List.filter_eq_self.2 fun other claimed => bne_iff_ne.2 fun same => free (same ▸ claimed)
    rw [Engine.releasing, unaltered.claimed, List.filter_cons_of_neg (by simp), others]

end Situation

open Situation (Unaltered)

namespace Engine

variable {α β : Type} {base s : Situation} {id : String}

/-! ## Computations that alter nothing -/

/-- What asks nothing, publishes nothing and alters nothing. -/
abbrev Looks (x : Engine α) : Prop :=
  ∀ s, (x s).Ends fun _ s' => Unaltered s s' ∧ s'.published = s.published

theorem Looks.unaltered {x : Engine α} (looks : Looks x) (s : Situation) :
    (x s).Ends fun _ s' => Unaltered s s' :=
  (looks s).mono (fun _ asked => asked) fun _ _ holds => holds.1

theorem Looks.bind {x : Engine α} {f : α → Engine β} (first : Looks x) (later : ∀ a, Looks (f a)) :
    Looks (x >>= f) := by
  intro s
  apply Activity.meets_bind (first s)
  rintro a s' ⟨unaltered, same⟩
  refine (later a s').mono (fun _ asked => asked) fun _ _ more => ?_
  exact ⟨unaltered.trans more.1, more.2.trans same⟩

theorem looks_pure (a : α) : Looks (pure a : Engine α) := fun s => ⟨.refl s, rfl⟩

theorem looks_situation : Looks situation := fun s => ⟨.refl s, rfl⟩

theorem looks_stamp : Looks stamp := fun _ => ⟨⟨rfl, rfl, rfl⟩, rfl⟩

theorem looks_now : Looks now := looks_stamp.bind fun _ => looks_pure _

theorem looks_read (id : String) : Looks (read id) := fun s => ⟨Situation.unaltered_get id s, rfl⟩

theorem looks_load (id : String) : Looks (load id) := by
  apply (looks_read id).bind
  intro found
  split <;> exact looks_pure _

theorem looks_graph (flow : String) : Looks (graph flow) := by
  apply looks_situation.bind
  intro s
  split <;> exact looks_pure _

theorem looks_trace (id : String) : Looks (trace id) := by
  apply (looks_load id).bind
  intro loaded
  split <;> exact looks_pure _

theorem looks_cursor (id : String) (size : Nat) : Looks (cursor id size) := by
  unfold cursor
  split
  · exact looks_pure _
  · exact looks_situation.bind fun _ => looks_pure _

theorem looks_setCursor (id : String) (place : Nat) : Looks (setCursor id place) :=
  fun _ => ⟨⟨rfl, rfl, rfl⟩, rfl⟩

theorem looks_dropCursor (id : String) : Looks (dropCursor id) := fun _ => ⟨⟨rfl, rfl, rfl⟩, rfl⟩

theorem looks_currentRecord (id : String) : Looks (currentRecord id) := by
  apply (looks_trace id).bind
  intro records
  split
  · exact looks_pure _
  · apply (looks_cursor id _).bind
    intro place
    split <;> exact looks_pure _

theorem looks_goBack (id : String) : Looks (goBack id) := by
  apply (looks_trace id).bind
  intro records
  split
  · exact looks_pure _
  · apply (looks_cursor id _).bind
    intro place
    split
    · exact looks_pure _
    · exact (looks_setCursor id _).bind fun _ => looks_pure _

theorem looks_pendingCalls (id : String) : Looks (pendingCalls id) := by
  apply (looks_load id).bind
  intro loaded
  split <;> exact looks_pure _

theorem looks_findPending (id front : String) : Looks (findPending id front) := by
  apply (looks_pendingCalls id).bind
  intro calls
  split
  · exact looks_pure _
  · split <;> exact looks_pure _

/-! ## Computations that undo what they began -/

/-- As long as others alter nothing while an answer is awaited, a computation that fails leaves all
as it was in `base`. -/
abbrev Reverts (base : Situation) (x : Engine (Except Failure α)) (s : Situation) : Prop :=
  ∀ since, (x s).Abides Unaltered (fun _ _ => True) (fun _ _ => True)
    (fun _ reply s' => ∀ f, reply = .error f → Unaltered base s') since

theorem Looks.reverts {x : Engine (Except Failure α)} (looks : Looks x)
    (unaltered : Unaltered base s) : Reverts base x s :=
  fun _ => (looks.unaltered s).abides fun _ _ more _ _ => unaltered.trans more

theorem Looks.bind_reverts {x : Engine β} {f : β → Engine (Except Failure α)} (looks : Looks x)
    (unaltered : Unaltered base s)
    (later : ∀ a s', Unaltered base s' → Reverts base (f a) s') : Reverts base (x >>= f) s := by
  intro since
  apply Activity.abides_bind_ends (looks.unaltered s)
  intro a s' more
  exact later a s' (unaltered.trans more) since

/-- What comes to a value whatever happens has nothing to undo. -/
theorem reverts_always (x : Engine β) (f : β → α) (base s : Situation) :
    Reverts base (do return .ok (f (← x))) s := by
  intro since
  have goesOn (y : Interaction Situation Question Answer β) (since : Situation) :
      y.Abides Unaltered (fun _ _ => True) (fun _ _ => True) (fun _ _ _ => True) since := by
    induction y generalizing since with
    | done s a => trivial
    | ask s q resume ih => exact ⟨trivial, trivial, fun answer s' _ => ih answer s' s'⟩
  apply Activity.abides_bind (goesOn (x s) since)
  intro _ a s' _ f failed
  cases failed

/-- Where nothing was altered so far, what is undone leaves all as it was before. -/
theorem Reverts.after {x : Engine (Except Failure α)} (reverts : Reverts s x s)
    (unaltered : Unaltered base s) : Reverts base x s :=
  fun since => (reverts since).mono (fun _ _ asked => asked)
    fun _ _ _ kept f failed => unaltered.trans (kept f failed)

theorem reverts_map {x : Engine (Except Failure α)} (reverts : Reverts base x s) (f : α → β) :
    Reverts base (do return (← x).map f) s := by
  intro since
  apply Activity.abides_bind (reverts since)
  intro _ reply s' kept failure failed
  cases reply with
  | error f => exact kept f rfl
  | ok a => cases failed

/-- What is claimed for a computation is released again, and a claim that is refused is none. -/
theorem reverts_claiming {body : Engine (Except Failure α)}
    (works : Reverts { s with claimed := id :: s.claimed } body
      { s with claimed := id :: s.claimed }) : Reverts s (claiming id body) s := by
  intro since
  by_cases busy : id ∈ s.claimed
  · rw [claiming_busy body busy]
    exact fun _ _ => .refl s
  · apply Activity.abides_bind_ends (tryClaim_free_ends busy)
    rintro _ s₁ ⟨rfl, rfl⟩
    rw [if_pos rfl]
    apply Activity.abides_bind (works since)
    intro _ reply s' kept f failed
    exact (kept f failed).releasing busy

theorem reverts_claiming_load {rest : Conversation → Engine (Except Failure α)}
    (works : ∀ c base s', Unaltered base s' → Reverts base (rest c) s') :
    Reverts s (claiming id do
      match ← load id with
      | .error f => return .error f
      | .ok c => rest c) s := by
  apply reverts_claiming
  apply (looks_load id).bind_reverts (.refl _)
  intro loaded s' unaltered
  split
  · exact (looks_pure _).reverts unaltered
  · exact works _ _ s' unaltered

/-- A write that is refused writes nothing. -/
theorem write_reverts (c : Conversation) (unaltered : Unaltered base s) :
    Reverts base (write c) s := by
  intro since
  refine (write_ends_saving c s).abides fun written s' holds f refused => ?_
  obtain ⟨rfl, rfl⟩ := holds
  exact unaltered.trans ⟨(Store.refused_of_put refused).2, rfl, rfl⟩

theorem save_reverts (c : Conversation) (unaltered : Unaltered base s) :
    Reverts base (save c) s := by
  intro since
  apply Activity.abides_bind (write_reverts c unaltered since)
  intro _ written s' kept
  split
  · next f => exact fun _ _ => kept f rfl
  · rintro f ⟨⟩

/-! ## Operations -/

/-- The run of a tool alters nothing, as long as others alter nothing meanwhile. -/
theorem decide_unaltered (c : Conversation) (call : ToolCall) (decision : Decision)
    (unaltered : Unaltered base s) (since : Situation) :
    (decide c call decision s).Abides Unaltered (fun _ _ => True) (fun _ _ => True)
      (fun _ _ s' => Unaltered base s') since := by
  have stays : Stays Unaltered (decide c call decision) := by
    cases decision with
    | approve =>
      apply (stays_invoke Situation.still_unaltered c.id call).bind
      intro outcome
      split <;> exact .pure _
    | reject reason => exact stays_situation.bind fun _ => .pure _
  refine (stays s s (.refl s)).rebase (fun _ late => Unaltered base late) unaltered ?_ ?_ ?_ ?_
  · exact fun _ _ _ before stretch => before.trans stretch
  · exact fun _ _ _ _ _ => ⟨trivial, trivial⟩
  · exact fun _ _ _ before relied => ⟨trivial, before.trans relied⟩
  · exact fun _ _ _ _ before stretch => before.trans stretch

theorem start_reverts (chosen : Option String) (flow : String) (message : Option String) :
    Reverts s (start chosen flow message) s := by
  apply (looks_graph flow).bind_reverts (.refl s)
  intro found s₁ unaltered
  split
  · exact (looks_pure _).reverts unaltered
  extract_lets begins
  have begin (id : String) (s₁ : Situation) (unaltered : Unaltered s s₁) :
      Reverts s (begins id) s₁ := by
    dsimp only [begins]
    split
    · exact (looks_pure _).reverts unaltered
    refine Reverts.after (reverts_claiming ?_) unaltered
    apply (looks_read id).bind_reverts (.refl _)
    intro known s₂ same
    split
    · exact (looks_pure _).reverts same
    · exact (looks_pure _).reverts same
    apply looks_situation.bind_reverts same
    intro seen s₃ same
    apply looks_now.bind_reverts same
    intro now s₄ same
    split
    · exact save_reverts _ same
    · exact looks_stamp.bind_reverts same fun _ _ same => save_reverts _ same
  clear_value begins
  cases chosen with
  | some id => exact begin id s₁ unaltered
  | none => exact looks_stamp.bind_reverts unaltered fun t s₂ same => begin t.id s₂ same

theorem post_reverts (id text : String) : Reverts s (post id text) s := by
  apply reverts_claiming_load
  intro c base s₁ unaltered
  split
  · exact (looks_pure _).reverts unaltered
  split
  · exact (looks_pure _).reverts unaltered
  -- The message is part of the copy at hand only, which is dropped where the flow is not there.
  apply looks_stamp.bind_reverts unaltered
  intro t s₂ same
  dsimp only
  split
  · apply (looks_graph _).bind_reverts same
    intro found s₃ same
    split
    · exact (looks_pure _).reverts same
    · exact save_reverts _ same
  · exact save_reverts _ same

theorem step_reverts (id : String) : Reverts s (step id) s :=
  reverts_claiming_load fun c base s' _ => reverts_always (advance c) (fun o => o) base s'

theorem run_reverts (id : String) (most : Nat) : Reverts s (run id most) s := by
  apply reverts_claiming_load
  intro c base s' _
  have reverts := reverts_always (advance c >>= keepGoing (most - 1)) (fun o => o) base s'
  simp only [bind_assoc] at reverts
  exact reverts

theorem cancel_reverts (id : String) : Reverts s (cancel id) s := by
  by_cases busy : id ∈ s.claimed
  · intro since
    unfold cancel
    rw [Activity.bind_run, tryClaim_busy busy]
    exact reverts_always (parkCancel id) (fun _ => ()) s s since
  · intro since
    rw [cancel_free busy]
    apply reverts_claiming_load
    intro c base s' unaltered
    exact looks_now.bind_reverts unaltered fun _ _ same => write_reverts _ same

theorem setRecording_reverts (id : String) (enabled : Bool) :
    Reverts s (setRecording id enabled) s := by
  apply reverts_claiming_load
  intro c base s' unaltered
  exact looks_now.bind_reverts unaltered fun _ _ same => save_reverts _ same

theorem resolve_reverts (id call : String) (decision : Decision) :
    Reverts s (resolve id call decision) s := by
  apply reverts_claiming_load
  intro c base s₁ unaltered
  apply looks_now.bind_reverts unaltered
  intro now s₂ same
  split
  · exact (looks_pure _).reverts same
  intro since
  apply Activity.abides_bind (decide_unaltered _ _ decision same since)
  intro since result s₃ same
  revert since
  apply looks_stamp.bind_reverts same
  intro t s₄ same since
  apply Activity.abides_bind (write_reverts _ same since)
  intro since written s₅ kept
  split
  · next f => exact fun _ _ => kept f rfl
  · exact reverts_always (publish _) (fun _ => _) base s₅ since

theorem resumeTrace_reverts (id : String) : Reverts s (resumeTrace id) s :=
  (looks_dropCursor id).bind_reverts (.refl s) fun _ _ same =>
    (setRecording_reverts id false).after same

theorem stepBeyond_reverts (id : String) (recorded : Nat) :
    Reverts s (stepBeyond id recorded) s := by
  intro since
  apply Activity.abides_bind (step_reverts id since)
  intro since reply s' kept
  split
  · next f => exact fun _ _ => kept f rfl
  · exact reverts_always (dropCursor id) (fun _ => _) s s' since

theorem goForward_reverts (id : String) : Reverts s (goForward id) s := by
  apply (looks_trace id).bind_reverts (.refl s)
  intro records s₁ unaltered
  split
  · exact (looks_pure _).reverts unaltered
  apply (looks_cursor id _).bind_reverts unaltered
  intro place s₂ same
  split
  · exact (stepBeyond_reverts id _).after same
  split
  · exact reverts_always (setCursor id _) (fun _ => _) s s₂
  · exact (stepBeyond_reverts id _).after same

theorem register_reverts (flow : AuthoredFlow) : Reverts s (register flow) s := by
  unfold register
  split
  · exact (looks_pure _).reverts (.refl s)
  · exact reverts_always (update _) (fun _ => _) s s

/-- A step with a conversation at hand that is refused: nothing happens at all. -/
theorem stepWith_refused {c : Conversation}
    (refused : Text.isBlankText c.id = true ∨ c.id ∈ s.claimed) :
    ∃ f, stepWith c s =
      .done s ⟨{ c with lastError := some (.ofFailure f) }, .error, none⟩ := by
  cases solid : Text.isBlankText c.id with
  | true =>
    refine ⟨.missingConversationId, ?_⟩
    unfold stepWith
    dsimp only
    rw [if_pos solid]
    rfl
  | false =>
    have busy : c.id ∈ s.claimed := refused.resolve_left (by simp [solid])
    exact ⟨.busy c.id, stepWith_busy solid busy⟩

end Engine

/-- An undertaking that fails leaves all as it found it, as long as others do meanwhile. -/
theorem Undertaking.perform_reverts (u : Undertaking) (s : Situation) :
    Engine.Reverts s u.perform s := by
  cases u with
  | registration flow => exact Engine.reverts_map (Engine.register_reverts flow) _
  | stepWith c => exact Engine.reverts_always (Engine.stepWith c) Operation.Outcome.step s s
  | operation op =>
    cases op with
    | start id flow message => exact Engine.reverts_map (Engine.start_reverts id flow message) _
    | post id text => exact Engine.reverts_map (Engine.post_reverts id text) _
    | step id => exact Engine.reverts_map (Engine.step_reverts id) _
    | run id most => exact Engine.reverts_map (Engine.run_reverts id most) _
    | cancel id => exact Engine.reverts_map (Engine.cancel_reverts id) _
    | setRecording id enabled =>
      exact Engine.reverts_map (Engine.setRecording_reverts id enabled) _
    | resolve id call decision =>
      exact Engine.reverts_map (Engine.resolve_reverts id call decision) _
    | enableTrace id => exact Engine.reverts_map (Engine.setRecording_reverts id true) _
    | resumeTrace id => exact Engine.reverts_map (Engine.resumeTrace_reverts id) _
    | currentRecord id =>
      exact Engine.reverts_map ((Engine.looks_currentRecord id).reverts (.refl s)) _
    | goBack id => exact Engine.reverts_map ((Engine.looks_goBack id).reverts (.refl s)) _
    | goForward id => exact Engine.reverts_map (Engine.goForward_reverts id) _

/-- Whatever is undertaken, and whatever goes wrong with it: if a failure is replied, then what is
stored, the registered flows and the claims are as they were before, as long as whoever answers its
questions leaves them alone. Looking for a pending call, or at the records of a trace, alters
nothing at all; nor does a step that is refused, be it that the id is blank or the conversation
claimed. -/
theorem failures_leave_unaltered (s : Situation) :
    (∀ u : Undertaking, (u.perform s).Abides Unaltered (fun _ _ => True) (fun _ _ => True)
      (fun _ reply s' => ∀ f, reply = .error f → Unaltered s s') s) ∧
    (∀ id front, (Engine.findPending id front s).Ends fun _ s' => Unaltered s s') ∧
    (∀ id, (Engine.trace id s).Ends fun _ s' => Unaltered s s') ∧
    ∀ c : Conversation, Text.isBlankText c.id = true ∨ c.id ∈ s.claimed →
      ∃ f, Engine.stepWith c s =
        .done s ⟨{ c with lastError := some (.ofFailure f) }, .error, none⟩ :=
  ⟨fun u => u.perform_reverts s s, fun id front => (Engine.looks_findPending id front).unaltered s,
    fun id => (Engine.looks_trace id).unaltered s,
    fun _ refused => Engine.stepWith_refused refused⟩

/-- A conversation whose flow was never registered, while another one is claimed. -/
def Situation.stranded : Situation :=
  { Situation.fresh .standard .memory default with
    store := { Store.memory with backing := Store.memory.backing.put (.fresh "c" "lost" default) }
    claimed := ["d"] }

/-- A message to it is not kept, since there is nowhere to go on from. -/
theorem stranded_post_unaltered :
    (∃ s', (Undertaking.operation (.post "c" "Hello")).perform .stranded =
      .done s' (.error (.flowNotFound "lost")) ∧ Unaltered .stranded s') ∧
    ∃ f, Engine.stepWith (.fresh "d" "lost" default) .stranded =
      .done .stranded ⟨{ Conversation.fresh "d" "lost" default with
        lastError := some (.ofFailure f) }, .error, none⟩ := by
  obtain ⟨fails, -, -, refused⟩ := failures_leave_unaltered .stranded
  refine ⟨⟨_, rfl, ?_⟩, refused _ (.inr List.mem_cons_self)⟩
  exact fails (.operation (.post "c" "Hello")) _ rfl

end DialogueEngine
