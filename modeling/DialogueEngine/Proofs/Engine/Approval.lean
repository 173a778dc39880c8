import DialogueEngine.Proofs.Conversation.Pending
import DialogueEngine.Proofs.Engine.Regime

/-!
Conversations that wait for approval. A decision that finds its call runs it, and asks nothing else;
until then no step runs a node and no message is taken.
-/

namespace DialogueEngine

/-- Whether a question asks a provider to run a tool. -/
def Question.isRun : Question → Bool
  | .runTool .. => true
  | _ => false

/-- The question that running a call puts to the provider that its name tells. -/
def ToolCall.question (call : ToolCall) : Except ToolFailure Question :=
  (ToolName.split call.name).map fun place => .runTool place.1 place.2 call.arguments

/-- A call that can wait for approval can be run. -/
theorem ToolCall.Approvable.question {call : ToolCall} (approvable : call.Approvable) :
    ∃ provider tool, ToolName.split call.name = .ok (provider, tool) ∧
      call.question = .ok (.runTool provider tool call.arguments) := by
  cases split : ToolName.split call.name with
  | error f => exact absurd approvable.splits (by simp [split, Except.isOk, Except.toBool])
  | ok place => exact ⟨place.1, place.2, rfl, by rw [ToolCall.question, split]; rfl⟩

theorem ToolCall.isRun_of_question {call : ToolCall} {q : Question}
    (question : call.question = .ok q) : q.isRun = true := by
  unfold ToolCall.question at question
  cases split : ToolName.split call.name with
  | error f => rw [split] at question; cases question
  | ok place => rw [split] at question; cases question; rfl

namespace Engine

open Conversation (Guarded extract)

variable {α : Type} {s : Situation} {c : Conversation} {id : String}

/-! ## Claims and reads -/

theorem tryClaim_ends (id : String) (s : Situation) : (tryClaim id s).Ends fun free s' =>
    free = !s.claimed.contains id ∧ s'.store = s.store ∧ s'.published = s.published := by
  unfold tryClaim
  by_cases busy : s.claimed.contains id = true
  · rw [if_pos busy]
    exact ⟨by rw [busy]; rfl, rfl, rfl⟩
  · rw [if_neg busy]
    exact ⟨by simpa using busy, rfl, rfl⟩

/-- What is done while a conversation is claimed ends at once, if it does where the conversation is
free. -/
theorem claiming_ends {body : Engine (Except Failure α)}
    {post : Except Failure α → Situation → Prop}
    (busy : ∀ s', s'.store = s.store → s'.published = s.published → post (.error (.busy id)) s')
    (free : s.claimed.contains id = false → ∀ s', s'.store = s.store →
      s'.published = s.published → (body s').Ends fun result s'' =>
        post result { s'' with claimed := s''.claimed.filter (· != id) }) :
    (claiming id body s).Ends post := by
  apply Activity.meets_bind (tryClaim_ends id s)
  intro isFree s₁ holds
  obtain ⟨claimed, store, published⟩ := holds
  split
  · next claims =>
    rw [claimed, Bool.not_eq_true'] at claims
    apply Activity.meets_bind (free claims s₁ store published)
    intro result s₂ holds
    exact holds
  · exact busy s₁ store published

theorem write_ends (c : Conversation) (s : Situation) : (write c s).Ends fun _ s' =>
    s'.published = s.published :=
  rfl

/-- What reading a conversation that must be there gives. -/
theorem load_ends (id : String) (s : Situation) : (load id s).Ends fun loaded s' =>
    (∀ c, loaded = .ok c ↔ (s.store.get id).1 = .ok (some c)) ∧
      s'.store = (s.store.get id).2 ∧ s'.published = s.published := by
  have reads : (read id s).Ends fun found s' => found = (s.store.get id).1 ∧
      s'.store = (s.store.get id).2 ∧ s'.published = s.published := ⟨rfl, rfl, rfl⟩
  apply Activity.meets_bind reads
  intro found s' same
  rw [← same.1]
  split
  · exact ⟨by simp, same.2⟩
  · exact ⟨by simp, same.2⟩
  · exact ⟨by simp, same.2⟩

/-! ## Decisions -/

/-- The call that an undertaking is about to run: a conversation is free and can be read, and the
call that is approved is pending. -/
def approvedCall (s : Situation) (id call : String) : Option ToolCall :=
  if s.claimed.contains id then none
  else
    match (s.store.get id).1 with
    | .ok (some c) => (extract call c.pending).map (·.1)
    | _ => none

theorem decide_approve {call : ToolCall} {q : Question} (approvable : call.Approvable)
    (question : call.question = .ok q) (c : Conversation) (s : Situation) :
    (decide c call .approve s).AsksOnce q := by
  obtain ⟨provider, tool, splits, same⟩ := approvable.question
  obtain rfl : .runTool provider tool call.arguments = q := by simpa [same] using question
  have invokes : (invoke c.id call s).AsksOnce (.runTool provider tool call.arguments) := by
    unfold invoke
    rw [if_neg (ne_true_of_eq_false approvable.not_route), splits]
    exact ⟨rfl, fun answer s' => trivial⟩
  apply invokes.andThen
  intro outcome s'
  cases outcome <;> exact trivial

/-- An approval that finds its call pending asks for it to be run, and nothing else. -/
theorem resolve_found (held : s.store.Holds Guarded) {call : String} {taken : ToolCall}
    (approved : approvedCall s id call = some taken) :
    ∃ q, taken.question = .ok q ∧ (resolve id call .approve s).AsksOnce q := by
  unfold approvedCall at approved
  split at approved
  · cases approved
  next busy =>
  split at approved
  case _ c found =>
    obtain ⟨⟨taken, rest⟩, pending, rfl⟩ := Option.map_eq_some_iff.1 approved
    have perm := (Conversation.extract_spec pending).1
    have approvable : taken.Approvable :=
      (held.of_get found).approvable taken (perm.symm.subset List.mem_cons_self)
    obtain ⟨provider, tool, -, question⟩ := approvable.question
    refine ⟨_, question, ?_⟩
    apply Activity.asksOnce_bind (tryClaim_ends id s)
    intro free s₁ holds
    obtain ⟨claimed, store, -⟩ := holds
    obtain rfl : free = true := by rw [claimed, Bool.not_eq_true _ |>.mp busy]; rfl
    refine Activity.asksOnce_bind_ends ?_ fun _ _ => trivial
    apply Activity.asksOnce_bind (load_ends id s₁)
    intro loaded s₂ holds
    obtain ⟨same, -, -⟩ := holds
    obtain rfl : loaded = .ok c := (same c).2 (store ▸ found)
    have ticks : (now s₂).Ends fun _ _ => True := trivial
    apply Activity.asksOnce_bind ticks
    intro t s₃ _
    obtain ⟨c', taking⟩ : ∃ c', c.takeCall call t = some (taken, c') := by
      rw [Conversation.takeCall, pending]
      exact ⟨_, rfl⟩
    rw [taking]
    apply Activity.asksOnce_bind_ends (decide_approve approvable question _ s₃)
    intro result s₄
    have stamps : (stamp s₄).Ends fun _ _ => True := trivial
    apply Activity.meets_bind stamps
    intro t s₅ _
    apply Activity.meets_bind (write_ends _ s₅)
    intro written s₆ _
    split <;> exact trivial
  case _ => cases approved

/-- An approval that finds nothing to approve asks nothing. -/
theorem resolve_missing {call : String} (missing : approvedCall s id call = none) :
    (resolve id call .approve s).Ends fun _ _ => True := by
  refine claiming_ends (fun _ _ _ => trivial) fun free s₁ store _ => ?_
  apply Activity.meets_bind (load_ends id s₁)
  intro loaded s₂ holds
  obtain ⟨same, -, -⟩ := holds
  split
  · exact trivial
  · next c =>
    have found : (s.store.get id).1 = .ok (some c) := store ▸ (same c).1 rfl
    rw [approvedCall, if_neg (ne_true_of_eq_false free), found] at missing
    have pending : extract call c.pending = none := Option.map_eq_none_iff.1 missing
    have ticks : (now s₂).Ends fun _ _ => True := trivial
    apply Activity.meets_bind ticks
    intro t s₃ _
    have taking : c.takeCall call t = none := by
      rw [Conversation.takeCall, pending]
      rfl
    rw [taking]
    exact trivial

/-! ## Waiting -/

/-- What a step gives that runs nothing: at most a request to cancel has been picked up. -/
structure Rests (c : Conversation) (o : StepResult) : Prop where
  conversation : o.conversation = c ∨
    ∃ now, o.conversation = { c with cancelled := true }.touch now
  action : o.action = .toolCall
  next : o.next = c.next

theorem Rests.stays {o : StepResult} (rests : Rests c o) (awaiting : c.status = .awaitingApproval) :
    o.continues = false := by
  have status : o.conversation.status = .awaitingApproval := by
    rcases rests.conversation with same | ⟨now, same⟩
    · exact same ▸ awaiting
    · exact same ▸ awaiting
  simp [StepResult.continues, status]

theorem advance_awaiting (awaiting : c.status = .awaitingApproval) (s : Situation) :
    (advance c s).Ends fun o s' => Rests c o ∧ s'.published = s.published := by
  have picks : (pickUpCancel c s).Ends fun c' s' => (c' = c ∨
      ∃ now, c' = { c with cancelled := true }.touch now) ∧ s'.published = s.published := by
    have takes : (takeCancel c.id s).Ends fun _ s' => s'.published = s.published := rfl
    apply Activity.meets_bind takes
    intro parked s₁ same
    split
    · have ticks : (now s₁).Ends fun _ s' => s'.published = s.published := same
      apply Activity.meets_bind ticks
      intro t s₂ same
      apply Activity.meets_bind (write_ends _ s₂)
      intro written s₃ later
      exact ⟨.inr ⟨t, rfl⟩, later.trans same⟩
    · exact ⟨.inl rfl, same⟩
  apply Activity.meets_bind picks
  intro c' s₁ holds
  obtain ⟨picked, same⟩ := holds
  have status : c'.status = .awaitingApproval ∧ c'.next = c.next := by
    rcases picked with rfl | ⟨t, rfl⟩
    · exact ⟨awaiting, rfl⟩
    · exact ⟨awaiting, rfl⟩
  rw [if_pos status.1]
  exact ⟨⟨picked, rfl, status.2⟩, same⟩

theorem keepGoing_stays {o : StepResult} (stays : o.continues = false) (budget : Nat)
    (s : Situation) : keepGoing budget o s = .done s o := by
  cases budget with
  | zero => rfl
  | succ budget =>
    unfold keepGoing
    rw [if_neg (ne_true_of_eq_false stays)]
    rfl

section Stored

variable (stored : s.store.backing.get id = .ok (some c))
include stored

/-- Only the conversation that is stored can be read. -/
theorem load_stored {s' : Situation} (same : s'.store = s.store) :
    (load id s').Ends fun loaded s'' => (∀ c', loaded = .ok c' → c' = c) ∧
      s''.store.backing = s.store.backing ∧ s''.published = s'.published := by
  refine (load_ends id s').mono (fun _ asked => asked) ?_
  intro loaded s'' holds
  obtain ⟨found, store, published⟩ := holds
  refine ⟨fun c' given => ?_, ?_, published⟩
  · have held := Store.get_eq_backing ((found c').1 given)
    rw [same, stored] at held
    simpa using held.symm
  · rw [store, Store.backing_get, same]

variable (awaiting : c.status = .awaitingApproval)
include awaiting

theorem step_awaiting : (step id s).Ends fun reply s' =>
    s'.published = s.published ∧ Given (Rests c) reply := by
  refine claiming_ends (fun s₁ _ same => ⟨same, .error _⟩) fun _ s₁ store same => ?_
  apply Activity.meets_bind (load_stored stored store)
  intro loaded s₂ holds
  obtain ⟨only, -, later⟩ := holds
  split
  · exact ⟨later.trans same, .error _⟩
  · next c' =>
    obtain rfl := only c' rfl
    apply Activity.meets_bind (advance_awaiting awaiting s₂)
    intro o s₃ holds
    obtain ⟨rests, last⟩ := holds
    exact ⟨last.trans (later.trans same), .ok rests⟩

theorem run_awaiting (most : Nat) : (run id most s).Ends fun reply s' =>
    s'.published = s.published ∧ Given (Rests c) reply := by
  refine claiming_ends (fun s₁ _ same => ⟨same, .error _⟩) fun _ s₁ store same => ?_
  apply Activity.meets_bind (load_stored stored store)
  intro loaded s₂ holds
  obtain ⟨only, -, later⟩ := holds
  split
  · exact ⟨later.trans same, .error _⟩
  · next c' =>
    obtain rfl := only c' rfl
    apply Activity.meets_bind (advance_awaiting awaiting s₂)
    intro o s₃ holds
    obtain ⟨rests, last⟩ := holds
    have goesOn : (keepGoing (most - 1) o s₃).Ends fun o' s' => o' = o ∧ s' = s₃ := by
      rw [keepGoing_stays (rests.stays awaiting)]
      exact ⟨rfl, rfl⟩
    apply Activity.meets_bind goesOn
    intro o' s' holds
    obtain ⟨rfl, rfl⟩ := holds
    exact ⟨last.trans (later.trans same), .ok rests⟩

/-- A message is refused, and nothing is kept of it. -/
theorem post_awaiting (text : String) : (post id text s).Ends fun reply s' =>
    (∃ f, reply = .error f) ∧ s'.store.backing = s.store.backing := by
  refine claiming_ends (fun s₁ same _ => ⟨⟨_, rfl⟩, by rw [same]⟩) fun _ s₁ store _ => ?_
  apply Activity.meets_bind (load_stored stored store)
  intro loaded s₂ holds
  obtain ⟨only, same, -⟩ := holds
  split
  · exact ⟨⟨_, rfl⟩, same⟩
  · next c' =>
    obtain rfl := only c' rfl
    rw [if_pos awaiting]
    exact ⟨⟨_, rfl⟩, same⟩

end Stored

end Engine

end DialogueEngine
