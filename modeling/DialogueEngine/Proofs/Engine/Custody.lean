import DialogueEngine.Proofs.Engine.Advancing
import DialogueEngine.Proofs.History.Basic

/-!
What operations do to the conversation that they work on, where they find it free. It is claimed for
as long as that takes and free in the end, and all others are spared. What a step leaves is what
advancing leaves; whatever else is written in the place of a conversation is cancelled if that is,
and no further call is pending in it.
-/

namespace DialogueEngine

open Conversation (Pauses)
open Situation (Accounted Drops Halted Honours InHand Spares Tends)

namespace Engine

variable {α : Type} {s since : Situation} {c d : Conversation} {id : String}
  {asStored accounted rested rested' unread : Prop} {may : String → Prop}

/-! ## Claims -/

/-- A situation in which a conversation is free again. -/
def releasing (id : String) (s : Situation) : Situation :=
  { s with claimed := s.claimed.filter (· != id) }

/-- What the work on a conversation leaves: the conversation is tended and free. -/
structure Finishes (id : String) (asStored : Prop) (since s : Situation) : Prop where
  tends : Tends id asStored since s
  free : id ∉ s.claimed

theorem finishes_releasing (tends : Tends id asStored since s) :
    Finishes id asStored since (releasing id s) where
  tends := tends.trans (.of_claims fun _ different => mem_claimed_filter id s different)
  free := by simp [releasing]

/-- A conversation that is free is claimed, worked on and released. -/
theorem claiming_free_meets {inv : Situation → Prop} {asks : Question → Prop}
    {body : Engine (Except Failure α)} {post : Except Failure α → Situation → Prop}
    (free : id ∉ s.claimed)
    (works : (body { s with claimed := id :: s.claimed }).Meets inv asks
      fun reply s' => post reply (releasing id s')) :
    (claiming id body s).Meets inv asks post := by
  apply Activity.meets_bind (tryClaim_free_ends free).meets
  rintro isFree s₁ ⟨rfl, rfl⟩
  rw [if_pos rfl]
  apply Activity.meets_bind works
  intro reply s' holds
  exact holds

theorem claiming_free_ends {body : Engine (Except Failure α)}
    {post : Except Failure α → Situation → Prop} (free : id ∉ s.claimed)
    (works : (body { s with claimed := id :: s.claimed }).Ends
      fun reply s' => post reply (releasing id s')) : (claiming id body s).Ends post :=
  claiming_free_meets free works

/-- Where it is free a conversation is claimed to be cancelled. -/
theorem cancel_free (free : id ∉ s.claimed) : cancel id s = claiming id
    (do
      match ← load id with
      | .error f => return .error f
      | .ok c => write ({ c with cancelled := true }.touch (← now))) s := by
  unfold cancel claiming
  rw [Activity.bind_run, Activity.bind_run, tryClaim_free free]
  simp only [bind_assoc]
  refine congrFun (congrArg (load id >>= ·) (funext fun loaded => ?_)) _
  cases loaded with
  | error f => rfl
  | ok c => simp only [bind_assoc]

/-- A conversation that is free is claimed and loaded, worked on and released. -/
theorem claiming_load_attends {rest : Conversation → Engine (Except Failure α)}
    {post : Situation → Except Failure α → Situation → Prop} (begun : s.core = since.core)
    (free : id ∉ s.claimed) (sound : s.store.Sound) (pausing : asStored → s.store.Holds Pauses)
    (accounting : accounted → Accounted id s)
    (fails : ∀ f s', s'.store.backing = s.store.backing → Finishes id asStored since s' →
      Unread id s → post since (.error f) s')
    (works : ∀ c s', Holding id asStored accounted since s' c →
      Attends id asStored may (rest c) since s' fun since reply s'' =>
        post since reply (releasing id s'')) :
    Attends id asStored may
      (claiming id do
        match ← load id with
        | .error f => return .error f
        | .ok c => rest c) since s post := by
  refine claiming_attends free ?_
  apply Activity.abides_bind_ends (load_ends_core id _)
  intro loaded s₁ holds
  obtain ⟨same, found, missing⟩ := holds
  have claims : Tends id asStored since { s with claimed := id :: s.claimed } :=
    (Tends.of_core begun).trans (.of_claims fun _ different => mem_claimed_cons id s different)
  have tends : Tends id asStored since s₁ := claims.trans (.of_core same)
  have backing : s₁.store.backing = s.store.backing := (Situation.backing_of_core same :)
  split
  · next f => exact fails f _ backing (finishes_releasing tends) (missing f rfl)
  · next c =>
    have there : s.store.backing.get id = .ok (some c) := found c rfl
    have own := sound.id_eq there
    have solid := (sound id c there).1
    have claimed : id ∈ s₁.claimed := by
      rw [Situation.claimed_of_core same]
      exact List.mem_cons_self
    have hand (faithful : asStored) : InHand id accounted s₁ c :=
      (InHand.of_get sound (pausing faithful) accounting there).of_entry
        (congrArg (Backing.entry id) backing)
    exact works c s₁ ⟨own, solid, tends, claimed, hand⟩

/-- What is written in the place of a conversation at hand, by anything but a step: it is cancelled
if that is, and nothing more is pending. -/
theorem Holding.saving (holding : Holding id asStored accounted since s c) (named : d.id = id)
    (cancelled : c.cancelled = true → d.cancelled = true)
    (pending : ∀ call ∈ d.pending.map (·.id), call ∈ c.pending.map (·.id)) :
    Tends id asStored since (s.saving d) := by
  refine holding.tends.trans (.saving named holding.solid fun faithful => ?_)
  have hand := holding.hand faithful
  refine .saving named (fun before => cancelled (hand.cancelled_iff.1 before)) ?_
  exact fun _ call inside => hand.awaits call (pending call inside)

theorem save_ends (c : Conversation) (s : Situation) :
    (save c s).Ends fun _ s' => s' = s.saving c := by
  apply Activity.meets_bind (write_ends_saving c s)
  intro written s' holds
  split <;> exact holds.1

/-! ## Decisions -/

theorem invoke_attends (holding : Holding id asStored accounted since s c) (conversation : String)
    (call : ToolCall) (allowed : asStored → ∃ call, may call ∧ call ∈ c.pending.map (·.id)) :
    Attends id asStored may (invoke conversation call) since s
      fun since _ s' => Holding id asStored accounted since s' c := by
  unfold invoke
  split
  · exact holding
  · split
    · exact holding
    · apply Activity.abides_bind_ends (publish_ends rfl s)
      intro _ s₁ same
      have holding₁ := holding.of_core same
      have approves (faithful : asStored) : ∃ call, may call ∧ s₁.store.Awaits call id := by
        obtain ⟨call, approved, pending⟩ := allowed faithful
        exact ⟨call, approved, (holding₁.hand faithful).awaits call pending⟩
      have asks (q : Question) (runs : q.isRun = true) : Attends id asStored may (ask q) since s₁
          fun since _ s' => Holding id asStored accounted since s' c :=
        ⟨holding₁.tends, ⟨holding₁.claimed, holding₁.solid,
          fun faithful => (holding₁.hand faithful).stored,
          fun faithful _ => .inr ⟨runs, approves faithful⟩⟩,
          fun answer s₂ spares => holding₁.resume spares⟩
      apply Activity.abides_bind (asks _ rfl)
      intro since' answer s₂ holding₂
      apply Activity.abides_bind_ends (publish_ends rfl s₂)
      intro _ s₃ later
      exact holding₂.of_core later

theorem decide_attends (holding : Holding id asStored accounted since s c) (call : ToolCall)
    (decision : Decision)
    (allowed : asStored → decision = .approve → ∃ call, may call ∧ call ∈ c.pending.map (·.id)) :
    Attends id asStored may (decide d call decision) since s
      fun since _ s' => Holding id asStored accounted since s' c := by
  cases decision with
  | approve =>
    apply Activity.abides_bind (invoke_attends holding d.id call fun faithful =>
      allowed faithful rfl)
    intro since' outcome s' holding'
    split <;> exact holding'
  | reject reason => exact holding

/-! ## Steps -/

/-- What steps with a stored conversation leave. If it was to be cancelled when the last stretch
began, then it is cancelled in the store, unless that stretch was the only one and `rested`. -/
structure Stepped (id : String) (asStored accounted rested : Prop) (since s : Situation) : Prop
    extends Finishes id asStored since s where
  halted : asStored → Halted id since → (id ∉ since.claimed ∧ rested) ∨
    Store.Refused since.store s.store ∨ s.store.Cancelled id
  accounts : asStored → accounted → Accounted id s ∨ Drops id since s

theorem Leaves.stepped (leaves : Leaves id asStored accounted since s) :
    Stepped id asStored accounted rested since (releasing id s) where
  toFinishes := finishes_releasing leaves.tends
  halted := fun faithful halted => .inr (leaves.halted faithful halted)
  accounts := leaves.accounts

theorem Stepped.of_core {s' : Situation} (stepped : Stepped id asStored accounted rested since s)
    (rests : rested → rested') (same : s'.core = s.core) :
    Stepped id asStored accounted rested' since s' := by
  have entry : s'.store.backing.entry id = s.store.backing.entry id :=
    congrArg (Backing.entry id) (Situation.backing_of_core same)
  have plan : s'.store.writeRefusals <:+ s.store.writeRefusals := by
    rw [Situation.plan_of_core same]
  refine ⟨⟨stepped.tends.trans (.of_core same), ?_⟩, fun faithful halted => ?_,
    fun faithful given => ?_⟩
  · rw [Situation.claimed_of_core same]
    exact stepped.free
  · exact (stepped.halted faithful halted).imp (And.imp_right rests)
      (Or.imp (fun refused => refused.later plan) (.congr entry))
  · exact (stepped.accounts faithful given).imp (.of_entry entry) (.of_core same)

section Stored

variable (begun : s.core = since.core) (free : id ∉ s.claimed) (sound : s.store.Sound)
  (pausing : asStored → s.store.Holds Pauses)
include begun free

/-- Where no step is taken, nothing changes. -/
theorem Stepped.of_rest (accounting : accounted → Accounted id s) {s' : Situation}
    (same : s'.core = s.core) (rests : rested) : Stepped id asStored accounted rested since s' where
  tends := .of_core (same.trans begun)
  free := by rwa [Situation.claimed_of_core same]
  halted := fun _ _ => .inl ⟨by rwa [← Situation.claimed_of_core begun], rests⟩
  accounts := fun _ given => .inl ((accounting given).of_entry
    (congrArg (Backing.entry id) (Situation.backing_of_core same)))

include sound pausing

theorem stepping_attends {steps : Conversation → Engine StepResult}
    (accounting : accounted → Accounted id s) (missing : Unread id s → unread)
    (attends : ∀ c s', Holding id asStored accounted since s' c →
      Attends id asStored may (steps c) since s' (Advances id asStored accounted)) :
    Attends id asStored may
      (claiming id do
        match ← load id with
        | .error f => return .error f
        | .ok c => return .ok (← steps c)) since s fun since reply s' =>
          Stepped id asStored accounted ((∃ f, reply = .error f) ∧ unread) since s' := by
  refine claiming_load_attends begun free sound pausing accounting ?_ ?_
  · intro f s' same finishes unfound
    have unclaimed : id ∉ since.claimed := by rwa [← Situation.claimed_of_core begun]
    have accounts (given : accounted) : Accounted id s' :=
      (accounting given).of_entry (congrArg (Backing.entry id) same)
    exact ⟨finishes, fun _ _ => .inl ⟨unclaimed, ⟨f, rfl⟩, missing unfound⟩,
      fun _ given => .inl (accounts given)⟩
  · intro c s' holding
    apply Activity.abides_bind (attends c s' holding)
    intro since o s'' advances
    exact advances.toLeaves.stepped

theorem step_attends (accounting : accounted → Accounted id s)
    (missing : Unread id s → unread) :
    Attends id asStored may (step id) since s fun since reply s' =>
      Stepped id asStored accounted ((∃ f, reply = .error f) ∧ unread) since s' :=
  stepping_attends begun free sound pausing accounting missing
    fun _ _ holding => advance_attends holding

theorem run_attends (accounting : accounted → Accounted id s)
    (missing : Unread id s → unread) (most : Nat) :
    Attends id asStored may (run id most) since s fun since reply s' =>
      Stepped id asStored accounted ((∃ f, reply = .error f) ∧ unread) since s' := by
  have goes (c : Conversation) (s' : Situation)
      (holding : Holding id asStored accounted since s' c) :
      Attends id asStored may (advance c >>= keepGoing (most - 1)) since s'
        (Advances id asStored accounted) := by
    apply Activity.abides_bind (advance_attends holding)
    intro since o s'' advances
    exact keepGoing_attends (most - 1) advances
  have attends : Attends id asStored may
      (claiming id do
        match ← load id with
        | .error f => return .error f
        | .ok c => return .ok (← (advance c >>= keepGoing (most - 1)))) since s
      fun since reply s' =>
        Stepped id asStored accounted ((∃ f, reply = .error f) ∧ unread) since s' :=
    stepping_attends begun free sound pausing accounting missing goes
  simp only [bind_assoc] at attends
  exact attends

/-! ## Other operations -/

/-- What works on a conversation without taking steps. -/
theorem claiming_finishes {rest : Conversation → Engine (Except Failure α)}
    (works : ∀ c s', Holding id asStored False since s' c →
      Attends id asStored may (rest c) since s' fun since _ s'' =>
        Finishes id asStored since (releasing id s'')) :
    Attends id asStored may
      (claiming id do
        match ← load id with
        | .error f => return .error f
        | .ok c => rest c) since s fun since _ s' => Finishes id asStored since s' :=
  claiming_load_attends begun free sound pausing (False.elim : False → Accounted id s)
    (fun _ _ _ finishes _ => finishes) works

theorem post_attends (text : String) :
    Attends id asStored may (post id text) since s
      fun since _ s' => Finishes id asStored since s' := by
  refine claiming_finishes begun free sound pausing fun c s' holding => ?_
  have rests := finishes_releasing holding.tends
  split
  · exact rests
  split
  · exact rests
  apply Activity.abides_bind_ends (stamp_ends s')
  intro t s₁ same
  have holding' := holding.of_core same
  have saves (d : Conversation) (own : d.id = c.id) (cancelled : d.cancelled = c.cancelled)
      (pending : d.pending = c.pending) : Attends id asStored may (save d) since s₁
        fun since _ s'' => Finishes id asStored since (releasing id s'') := by
    have tends := holding'.saving (own.trans holding.named)
      (fun before => cancelled.trans before) fun call inside => pending ▸ inside
    refine (save_ends d s₁).abides fun _ s'' saved => ?_
    subst saved
    exact finishes_releasing tends
  split
  · apply Activity.abides_bind_ends (graph_ends _ s₁)
    rintro found _ rfl
    split
    · exact finishes_releasing holding'.tends
    · exact saves _ (Conversation.reopen_id _) (Conversation.reopen_cancelled _)
        (Conversation.reopen_pending _)
  · exact saves _ (Conversation.reopen_id _) (Conversation.reopen_cancelled _)
      (Conversation.reopen_pending _)

theorem setRecording_attends (enabled : Bool) :
    Attends id asStored may (setRecording id enabled) since s
      fun since _ s' => Finishes id asStored since s' := by
  refine claiming_finishes begun free sound pausing fun c s' holding => ?_
  apply Activity.abides_bind_ends (now_ends s')
  intro now s₁ same
  have tends := (holding.of_core same).saving (d := c.withRecording enabled now) holding.named
    (fun before => before) fun _ inside => inside
  refine (save_ends _ s₁).abides fun _ s'' saved => ?_
  subst saved
  exact finishes_releasing tends

/-- A conversation that is cancelled at once is cancelled in the store when this has succeeded. -/
theorem cancel_attends : Attends id asStored may (cancel id) since s
    fun since reply s' => Finishes id asStored since s' ∧
      (reply = .ok () → s'.store.Cancelled id) := by
  rw [Attends, cancel_free free]
  refine claiming_load_attends begun free sound pausing (False.elim : False → Accounted id s)
    (fun _ _ _ finishes _ => ⟨finishes, fun done => by cases done⟩) fun c s' holding => ?_
  apply Activity.abides_bind_ends (now_ends s')
  intro now s₁ same
  have named : ({ c with cancelled := true }.touch now).id = id := holding.named
  have tends := (holding.of_core same).saving named (fun _ => rfl) fun _ inside => inside
  refine (write_ends_saving _ s₁).abides fun written s'' holds => ?_
  obtain ⟨rfl, put⟩ := holds
  refine ⟨finishes_releasing tends, fun done => ?_⟩
  have kept := Store.keeps_of_put (put.symm.trans done)
  exact ⟨_, named, kept, rfl⟩

theorem resumeTrace_attends : Attends id asStored may (resumeTrace id) since s
    fun since _ s' => Finishes id asStored since s' := by
  have drops : (dropCursor id s).Ends fun _ s' => s' = { s with cursors := s.cursors.erase id } :=
    rfl
  apply Activity.abides_bind_ends drops
  rintro _ _ rfl
  exact setRecording_attends (s := { s with cursors := s.cursors.erase id }) begun free sound
    pausing false

theorem resolve_attends (call : String) (decision : Decision) :
    Attends id asStored (fun other => decision = .approve ∧ other = call)
      (resolve id call decision) since s fun since _ s' => Finishes id asStored since s' := by
  refine claiming_finishes begun free sound pausing fun c s' holding => ?_
  apply Activity.abides_bind_ends (now_ends s')
  intro now s₁ same
  have holding₁ := holding.of_core same
  cases found : c.takeCall call now with
  | none => exact finishes_releasing holding₁.tends
  | some pair =>
  obtain ⟨taken, rest⟩ := pair
  obtain ⟨others, inside, rfl⟩ := Conversation.takeCall_spec found
  obtain ⟨perm, named⟩ := Conversation.extract_spec inside
  have pending (other : String) (left : other ∈ others.map (·.id)) :
      other ∈ c.pending.map (·.id) :=
    (perm.map _).symm.subset (List.mem_cons_of_mem _ left)
  have approved : call ∈ c.pending.map (·.id) :=
    (perm.map _).symm.subset (by rw [← named]; exact List.mem_cons_self)
  apply Activity.abides_bind (decide_attends holding₁ taken decision
    fun _ approve => ⟨call, ⟨approve, rfl⟩, approved⟩)
  intro since' result s₂ holding₂
  apply Activity.abides_bind_ends (stamp_ends s₂)
  intro t s₃ later
  have holding₃ := holding₂.of_core later
  have answers (d : Conversation) (own : d.id = c.id) (cancelled : d.cancelled = c.cancelled)
      (left : d.pending = others) : Attends id asStored
        (fun other => decision = .approve ∧ other = call)
        (telling d taken.id (decision = .approve)) since' s₃
        fun since _ s'' => Finishes id asStored since (releasing id s'') := by
    have tends := holding₃.saving (own.trans holding₃.named) (fun before => cancelled.trans before)
      fun other inside => pending other (left ▸ inside)
    apply Activity.abides_bind_ends (write_ends_saving d s₃)
    rintro written s₄ ⟨rfl, -⟩
    split
    · exact finishes_releasing tends
    · apply Activity.abides_bind_ends (publish_ends rfl _)
      intro _ s₅ published
      exact finishes_releasing (tends.trans (.of_core published))
  split
  · exact answers _ rfl rfl rfl
  · exact answers _ rfl rfl rfl

end Stored

/-! ## Conversations that are given or new -/

theorem stepWith_attends (begun : s.core = since.core) (free : c.id ∉ s.claimed)
    (given : ¬ asStored) : Attends c.id asStored may (stepWith c) since s
      fun since _ s' => Finishes c.id asStored since s' := by
  have tends : Tends c.id asStored since s := .of_core begun
  unfold stepWith
  dsimp only
  split
  · exact ⟨tends, free⟩
  next solid =>
  apply Activity.abides_bind_ends (tryClaim_free_ends free)
  rintro isFree s₁ ⟨rfl, rfl⟩
  rw [if_pos rfl]
  have holding : Holding c.id asStored False since { s with claimed := c.id :: s.claimed } c :=
    ⟨rfl, by simpa using solid,
      tends.trans (.of_claims fun _ different => mem_claimed_cons c.id s different),
      List.mem_cons_self, fun faithful => absurd faithful given⟩
  apply Activity.abides_bind (advance_attends holding)
  intro since' o s' advances
  exact finishes_releasing advances.tends

/-- What is new takes the place of nothing. -/
theorem saving_new_finishes {fresh : Conversation} (named : fresh.id = id)
    (solid : Text.isBlankText id = false) (quiet : fresh.pending = [])
    (tends : Tends id asStored since s) (missing : s.store.backing.entry id = none) :
    Finishes id asStored since (releasing id (s.saving fresh)) := by
  have honours : Honours id s (s.saving fresh) := by
    refine .saving named (fun cancelled => ?_) fun _ call pending => ?_
    · simpa [missing] using cancelled.isSome
    · simp [quiet] at pending
  exact finishes_releasing (tends.trans (.saving named solid fun _ => honours))

/-- A start asks nothing. -/
theorem start_finishes {chosen : Option String} (named : chosen.getD s.clock.tick.1.id = id)
    (begun : s.core = since.core) (free : id ∉ s.claimed) (flow : String)
    (message : Option String) :
    (start chosen flow message s).Ends fun _ s' => Finishes id asStored since s' := by
  have rests {s' : Situation} (same : s'.core = s.core) : Finishes id asStored since s' :=
    ⟨.of_core (same.trans begun), by rwa [Situation.claimed_of_core same]⟩
  apply Activity.meets_bind (graph_ends flow s)
  intro found s₀ unchanged
  obtain rfl : s = s₀ := unchanged.symm
  split
  · exact rests rfl
  extract_lets begins
  have begin {s₁ : Situation} (same : s₁.core = s.core) :
      (begins id s₁).Ends fun _ s' => Finishes id asStored since s' := by
    dsimp only [begins]
    split
    · exact rests same
    next solid =>
    have unclaimed : id ∉ s₁.claimed := by rwa [Situation.claimed_of_core same]
    have claims : Tends id asStored since { s₁ with claimed := id :: s₁.claimed } :=
      (Tends.of_core (same.trans begun)).trans
        (.of_claims fun _ different => mem_claimed_cons id s₁ different)
    refine claiming_free_ends unclaimed ?_
    apply Activity.meets_bind (read_ends id _)
    intro found s₂ holds
    obtain ⟨given, read⟩ := holds
    have tends : Tends id asStored since s₂ := claims.trans (.of_core read)
    split
    · exact finishes_releasing tends
    · exact finishes_releasing tends
    have missing : s₂.store.backing.entry id = none := by
      rw [Situation.backing_of_core read]
      exact Backing.entry_eq_none (Store.get_eq_backing given.symm)
    have saves {fresh : Conversation} {s₃ : Situation} (later : s₃.core = s₂.core)
        (own : fresh.id = id) (quiet : fresh.pending = []) :
        (save fresh s₃).Ends fun _ s' => Finishes id asStored since (releasing id s') := by
      have gone : s₃.store.backing.entry id = none := by
        rw [Situation.backing_of_core later]
        exact missing
      refine (save_ends fresh s₃).mono (fun _ asked => asked) fun _ s' saved => ?_
      rw [saved]
      exact saving_new_finishes own (by simpa using solid) quiet (tends.trans (.of_core later)) gone
    have looks : (situation s₂).Ends fun _ s' => s' = s₂ := rfl
    apply Activity.meets_bind looks
    intro seen s₃ same₃
    obtain rfl : s₂ = s₃ := same₃.symm
    apply Activity.meets_bind (now_ends s₂)
    intro now s₄ later
    split
    · exact saves later rfl rfl
    · apply Activity.meets_bind (stamp_ends s₄)
      intro t s₅ last
      exact saves (last.trans later) rfl rfl
  clear_value begins
  cases chosen with
  | some chosen =>
    obtain rfl : chosen = id := named
    exact begin rfl
  | none =>
    obtain rfl : s.clock.tick.1.id = id := named
    exact begin rfl

theorem register_ends (flow : AuthoredFlow) (s : Situation) :
    (register flow s).Ends fun _ s' => s'.core = s.core := by
  unfold register
  cases flow.toGraph <;> exact rfl

/-! ## Cursors -/

theorem trace_ends (id : String) (s : Situation) :
    (trace id s).Ends fun _ s' => s'.core = s.core := by
  apply Activity.meets_bind (load_ends_core id s)
  intro loaded s' holds
  split <;> exact holds.1

theorem cursor_ends (id : String) (size : Nat) (s : Situation) :
    (cursor id size s).Ends fun _ s' => s'.core = s.core := by
  unfold cursor
  split <;> exact rfl

theorem setCursor_ends (id : String) (place : Nat) (s : Situation) :
    (setCursor id place s).Ends fun _ s' => s'.core = s.core :=
  rfl

theorem dropCursor_ends (id : String) (s : Situation) :
    (dropCursor id s).Ends fun _ s' => s'.core = s.core :=
  rfl

theorem currentRecord_ends (id : String) (s : Situation) :
    (currentRecord id s).Ends fun _ s' => s'.core = s.core := by
  apply Activity.meets_bind (trace_ends id s)
  intro records s₁ same
  split
  · exact same
  · apply Activity.meets_bind (cursor_ends id _ s₁)
    intro place s₂ later
    split <;> exact later.trans same

theorem goBack_ends (id : String) (s : Situation) :
    (goBack id s).Ends fun _ s' => s'.core = s.core := by
  apply Activity.meets_bind (trace_ends id s)
  intro records s₁ same
  split
  · exact same
  · apply Activity.meets_bind (cursor_ends id _ s₁)
    intro place s₂ later
    split
    · exact later.trans same
    · apply Activity.meets_bind (setCursor_ends id _ s₂)
      intro _ s₃ last
      exact last.trans (later.trans same)

section Stored

variable (begun : s.core = since.core) (free : id ∉ s.claimed) (sound : s.store.Sound)
  (pausing : asStored → s.store.Holds Pauses) (accounting : accounted → Accounted id s)
include begun free sound pausing accounting

theorem stepBeyond_attends (recorded : Nat) :
    Attends id asStored may (stepBeyond id recorded) since s fun since _ s' =>
      Stepped id asStored accounted True since s' := by
  apply Activity.abides_bind (step_attends begun free sound pausing accounting fun unread => unread)
  intro since' reply s' stepped
  split
  · exact stepped.of_core (fun _ => trivial) rfl
  · apply Activity.abides_bind_ends (dropCursor_ends id s')
    intro _ s'' same
    exact stepped.of_core (fun _ => trivial) same

theorem goForward_attends : Attends id asStored may (goForward id) since s fun since _ s' =>
    Stepped id asStored accounted True since s' := by
  have rests {s' : Situation} (same : s'.core = s.core) :
      Stepped id asStored accounted True since s' := .of_rest begun free accounting same trivial
  have beyond (recorded : Nat) {s' : Situation} (same : s'.core = s.core) :
      Attends id asStored may (stepBeyond id recorded) since s' fun since _ s'' =>
        Stepped id asStored accounted True since s'' := by
    have backing := Situation.backing_of_core same
    have unclaimed : id ∉ s'.claimed := by rwa [Situation.claimed_of_core same]
    have holds (faithful : asStored) : s'.store.Holds Pauses := by
      intro other c found
      rw [backing] at found
      exact pausing faithful other c found
    exact stepBeyond_attends (same.trans begun) unclaimed (sound.of_backing backing) holds
      (fun given => (accounting given).of_entry (congrArg (Backing.entry id) backing)) recorded
  apply Activity.abides_bind_ends (trace_ends id s)
  intro records s₁ same
  split
  · exact rests same
  · apply Activity.abides_bind_ends (cursor_ends id _ s₁)
    intro place s₂ later
    split
    · exact beyond _ (later.trans same)
    · split
      · apply Activity.abides_bind_ends (setCursor_ends id _ s₂)
        intro _ s₃ last
        exact rests (last.trans (later.trans same))
      · exact beyond _ (later.trans same)

end Stored

end Engine

end DialogueEngine
