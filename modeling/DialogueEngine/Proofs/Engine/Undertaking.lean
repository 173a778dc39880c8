import DialogueEngine.Proofs.Engine.Custody

/-!
What undertakings do to the conversation that they are about. Where it is free they attend to it and
leave it free; where it is claimed they are refused, and nothing happens but that a request to
cancel it may be parked.
-/

namespace DialogueEngine

open Conversation (Pauses)
open Engine (Asks Finishes Stepped Unread)
open Situation (Accounted Drops Halted Spares Tends)

variable {s s' : Situation} {id : String} {asStored : Prop}

/-! ## Being refused -/

namespace Situation

/-- Nothing happens to any conversation, but that somebody may ask for it to be cancelled. -/
structure Quiet (s s' : Situation) : Prop where
  core : s'.core = { s.core with cancelRequests := s'.cancelRequests }
  requested : s.cancelRequests ⊆ s'.cancelRequests

namespace Quiet

theorem of_core (same : s'.core = s.core) : Quiet s s' where
  core := by
    rw [requests_of_core same]
    exact same
  requested := by rw [requests_of_core same]; exact fun _ parked => parked

variable (quiet : Quiet s s')
include quiet

theorem backing : s'.store.backing = s.store.backing := (congrArg (·.store.backing) quiet.core :)

theorem plan : s'.store.writeRefusals = s.store.writeRefusals :=
  (congrArg (·.store.writeRefusals) quiet.core :)

theorem claimed : s'.claimed = s.claimed := (congrArg Situation.claimed quiet.core :)

theorem spares (id : String) : Spares id s s' where
  entry := by rw [quiet.backing]
  claimed := by rw [quiet.claimed]
  requested := fun parked => quiet.requested parked
  starts := by
    have same : s'.core.starts id = s.core.starts id := by rw [quiet.core]; rfl
    rwa [starts_core, starts_core] at same
  settings := (congrArg Situation.settings quiet.core :)

end Quiet

end Situation

open Situation (Quiet)

namespace Undertaking

/-- The id of the conversation that an undertaking is about, unless it is to get a new one. -/
def id? : Undertaking → Option String
  | .operation op => op.id?
  | .registration _ => none
  | .stepWith c => some c.id

/-- The conversation that an undertaking is about when it is begun. -/
def subject (s : Situation) : Undertaking → Option String
  | .operation (.start chosen _ _) => some (chosen.getD s.clock.tick.1.id)
  | u => u.id?

theorem subject_of_id? {u : Undertaking} (named : u.id? = some id) : u.subject s = some id := by
  cases u with
  | operation op =>
    cases op with
    | start chosen flow message =>
      obtain rfl : chosen = some id := named
      rfl
    | _ => exact named
  | _ => exact named

/-- What is replied at once where the conversation is claimed. A request to cancel is parked
instead, and what concerns the records of a trace looks at them or moves its cursor first. -/
def refusal (s : Situation) : Undertaking → Option Reply
  | .operation (.start (some id) flow _) =>
    if (s.flows.get? flow).isSome then some (.error (.busy id)) else none
  | .operation (.step id) | .operation (.run id _) | .operation (.post id _)
  | .operation (.setRecording id _) | .operation (.resolve id _ _)
  | .operation (.enableTrace id) => some (.error (.busy id))
  | .stepWith c =>
    some (.ok (.step ⟨{ c with lastError := some (.ofFailure (.busy c.id)) }, .error, none⟩))
  | _ => none

end Undertaking

namespace Engine

variable {α : Type}

theorem perform_claiming (body : Engine (Except Failure α)) (f : α → Operation.Outcome)
    (busy : id ∈ s.claimed) :
    (do return (← claiming id body).map f : Engine Undertaking.Reply) s =
      .done s (.error (.busy id)) := by
  rw [Activity.bind_run, claiming_busy body busy]
  rfl

theorem start_busy {flow : String} {g : Graph} (found : s.flows.get? flow = some g)
    (solid : Text.isBlankText id = false) (message : Option String) (busy : id ∈ s.claimed) :
    start (some id) flow message s = .done s (.error (.busy id)) := by
  have looks : situation s = .done s s := rfl
  have finds : graph flow s = .done s (.ok g) := by
    unfold graph
    rw [Activity.bind_of_done looks, found]
    rfl
  unfold start
  rw [Activity.bind_run, finds]
  change (if Text.isBlankText id = true then _ else claiming id _ : Engine _) s = _
  rw [if_neg (by simp [solid])]
  exact claiming_busy _ busy

theorem start_quiet {chosen : Option String}
    (busy : chosen.getD s.clock.tick.1.id ∈ s.claimed) (flow : String) (message : Option String) :
    (start chosen flow message s).Ends fun _ s' => s'.core = s.core := by
  apply Activity.meets_bind (graph_ends flow s)
  intro found s₀ unchanged
  obtain rfl : s = s₀ := unchanged.symm
  split
  · exact rfl
  extract_lets begins
  have begin {s₁ : Situation} {id : String} (same : s₁.core = s.core) (busy : id ∈ s.claimed) :
      (begins id s₁).Ends fun _ s' => s'.core = s.core := by
    dsimp only [begins]
    split
    · exact same
    · have claimed : id ∈ s₁.claimed := by rwa [Situation.claimed_of_core same]
      rw [claiming_busy _ claimed]
      exact same
  clear_value begins
  cases chosen with
  | some chosen => exact begin rfl busy
  | none => exact begin rfl busy

theorem parkCancel_ends (id : String) (s : Situation) : (parkCancel id s).Ends fun _ s' =>
    Situation.Quiet s s' ∧ id ∈ s'.cancelRequests := by
  have parks : (parkCancel id s).Ends fun _ s' => s' =
      if s.cancelRequests.contains id then s
      else { s with cancelRequests := id :: s.cancelRequests } := rfl
  refine parks.mono (fun _ asked => asked) ?_
  rintro _ _ rfl
  split
  · next parked => exact ⟨.of_core rfl, List.contains_iff_mem.1 parked⟩
  · exact ⟨⟨rfl, List.subset_cons_self id _⟩, List.mem_cons_self⟩

theorem cancel_busy (busy : id ∈ s.claimed) : (cancel id s).Ends fun _ s' =>
    Situation.Quiet s s' ∧ id ∈ s'.cancelRequests := by
  unfold cancel
  rw [Activity.bind_run, tryClaim_busy busy]
  exact Activity.meets_bind (parkCancel_ends id s) fun _ _ holds => holds

theorem goForward_quiet (busy : id ∈ s.claimed) :
    (goForward id s).Ends fun _ s' => s'.core = s.core := by
  have beyond (recorded : Nat) {s' : Situation} (same : s'.core = s.core) :
      (stepBeyond id recorded s').Ends fun _ s'' => s''.core = s.core := by
    have claimed : id ∈ s'.claimed := by rwa [Situation.claimed_of_core same]
    unfold stepBeyond step
    rw [Activity.bind_run, claiming_busy _ claimed]
    exact same
  apply Activity.meets_bind (trace_ends id s)
  intro records s₁ same
  split
  · exact same
  · apply Activity.meets_bind (cursor_ends id _ s₁)
    intro place s₂ later
    split
    · exact beyond _ (later.trans same)
    · split
      · apply Activity.meets_bind (setCursor_ends id _ s₂)
        intro _ s₃ last
        exact last.trans (later.trans same)
      · exact beyond _ (later.trans same)

theorem stepWith_busy {c : Conversation} (solid : Text.isBlankText c.id = false)
    (busy : c.id ∈ s.claimed) : stepWith c s =
      .done s ⟨{ c with lastError := some (.ofFailure (.busy c.id)) }, .error, none⟩ := by
  unfold stepWith
  dsimp only
  rw [if_neg (by simp [solid]), Activity.bind_run, tryClaim_busy busy]
  rfl

end Engine

namespace Undertaking

/-- Whoever is refused changes nothing. -/
theorem perform_refused {u : Undertaking} {reply : Reply} (named : u.id? = some id)
    (solid : Text.isBlankText id = false) (busy : id ∈ s.claimed)
    (refused : u.refusal s = some reply) : u.perform s = .done s reply := by
  cases u with
  | registration flow => cases named
  | stepWith c =>
    obtain rfl : c.id = id := by simpa [id?] using named
    obtain rfl := Option.some.inj refused
    change (Engine.stepWith c s).andThen _ = _
    rw [Engine.stepWith_busy solid busy]
    rfl
  | operation op =>
    cases op with
    | start chosen flow message =>
      obtain rfl : chosen = some id := named
      obtain ⟨known, rfl⟩ : (s.flows.get? flow).isSome ∧ .error (.busy id) = reply := by
        simpa [refusal] using refused
      obtain ⟨g, found⟩ := Option.isSome_iff_exists.1 known
      change (Engine.start (some id) flow message s).andThen _ = _
      rw [Engine.start_busy found solid message busy]
      rfl
    | cancel _ | resumeTrace _ | currentRecord _ | goBack _ | goForward _ => cases refused
    | _ =>
      obtain rfl := Option.some.inj named
      obtain rfl := Option.some.inj refused
      exact Engine.perform_claiming _ _ busy

theorem quiet_outcome {α : Type} {x : Engine α} {f : α → Reply} {u : Undertaking}
    (quiet : (x s).Ends fun _ s' => s'.core = s.core)
    (other : ∀ id, u ≠ .operation (.cancel id)) :
    ((do return f (← x) : Engine Reply) s).Ends fun _ s' => Quiet s s' ∧
      ∀ id, u = .operation (.cancel id) → id ∈ s'.cancelRequests :=
  Activity.meets_bind quiet fun _ _ same =>
    ⟨.of_core same, fun id cancels => absurd cancels (other id)⟩

/-- Where the conversation is claimed an undertaking ends at once and nothing happens. -/
theorem perform_quiet {u : Undertaking} (busy : ∀ id, u.subject s = some id → id ∈ s.claimed) :
    (u.perform s).Ends fun _ s' => Quiet s s' ∧
      ∀ id, u = .operation (.cancel id) → id ∈ s'.cancelRequests := by
  have claiming {α : Type} {id : String} {s₁ : Situation} (body : Engine (Except Failure α))
      (same : s₁.core = s.core) (claimed : id ∈ s.claimed) :
      (Engine.claiming id body s₁).Ends fun _ s' => s'.core = s.core := by
    have busy : id ∈ s₁.claimed := by rwa [Situation.claimed_of_core same]
    rw [Engine.claiming_busy body busy]
    exact same
  cases u with
  | registration flow => exact quiet_outcome (Engine.register_ends flow s) (by simp)
  | stepWith c =>
    have quiet : (Engine.stepWith c s).Ends fun _ s' => s'.core = s.core := by
      cases solid : Text.isBlankText c.id with
      | true =>
        unfold Engine.stepWith
        dsimp only
        rw [if_pos solid]
        exact rfl
      | false =>
        rw [Engine.stepWith_busy solid (busy c.id rfl)]
        exact rfl
    exact quiet_outcome quiet (by simp)
  | operation op =>
    cases op with
    | start chosen flow message =>
      exact quiet_outcome (Engine.start_quiet (busy _ rfl) flow message) (by simp)
    | cancel id =>
      apply Activity.meets_bind (Engine.cancel_busy (busy id rfl))
      rintro reply s' ⟨quiet, parked⟩
      refine ⟨quiet, fun other same => ?_⟩
      cases same
      exact parked
    | resumeTrace id =>
      have quiet : (Engine.resumeTrace id s).Ends fun _ s' => s'.core = s.core := by
        apply Activity.meets_bind (Engine.dropCursor_ends id s)
        intro _ s₁ same
        exact claiming _ same (busy id rfl)
      exact quiet_outcome quiet (by simp)
    | currentRecord id => exact quiet_outcome (Engine.currentRecord_ends id s) (by simp)
    | goBack id => exact quiet_outcome (Engine.goBack_ends id s) (by simp)
    | goForward id => exact quiet_outcome (Engine.goForward_quiet (busy id rfl)) (by simp)
    | step id | run id | post id | setRecording id | resolve id | enableTrace id =>
      exact quiet_outcome (claiming _ rfl (busy id rfl)) (by simp)

/-! ## Attending to a conversation -/

/-- Whether an undertaking takes steps with a conversation as it is stored. -/
def Steps (id : String) : Undertaking → Prop
  | .operation (.step other) | .operation (.run other _) | .operation (.goForward other) =>
    other = id
  | _ => False

theorem Steps.named {u : Undertaking} (steps : u.Steps id) : u.id? = some id := by
  unfold Steps at steps
  split at steps
  · exact congrArg some steps
  · exact congrArg some steps
  · exact congrArg some steps
  · exact steps.elim

/-- Those who take steps are refused where the conversation is claimed, but for one that looks at
the records first. -/
theorem Steps.refusal {u : Undertaking} (steps : u.Steps id) :
    u = .operation (.goForward id) ∨ u.refusal s = some (.error (.busy id)) := by
  unfold Steps at steps
  split at steps
  · exact .inr (steps ▸ rfl)
  · exact .inr (steps ▸ rfl)
  · exact .inl (steps ▸ rfl)
  · exact steps.elim

/-- What an undertaking replies if it takes no step: a failure because the conversation could not be
read, or a record that was there already. -/
def Rests (u : Undertaking) (id : String) (begun : Situation) (reply : Reply) : Prop :=
  u = .operation (.goForward id) ∨ (∃ f, reply = .error f) ∧ Unread id begun

/-- What the one who attends to a conversation leaves in the end. -/
structure Closes (u : Undertaking) (id : String) (asStored accounted : Prop)
    (begun since : Situation) (reply : Reply) (s : Situation) : Prop
    extends Finishes id asStored since s where
  cancels : u = .operation (.cancel id) → reply = .ok .done → s.store.Cancelled id
  steps : u.Steps id → Stepped id asStored accounted (u.Rests id begun reply) since s

/-- What the one who attends to a conversation may ask. -/
structure Poses (u : Undertaking) (id : String) (asStored : Prop) (s : Situation) (q : Question) :
    Prop where
  named : u.id? = some id
  asks : Asks id asStored (fun call => u = .operation (.resolve id call .approve)) s q

variable {α : Type} {u : Undertaking} {accounted : Prop}

theorem Closes.of_finishes {begun since : Situation} {reply : Reply}
    (finishes : Finishes id asStored since s) (other : ¬ u.Steps id)
    (goesOn : u ≠ .operation (.cancel id)) :
    u.Closes id asStored accounted begun since reply s where
  toFinishes := finishes
  cancels := fun same => absurd same goesOn
  steps := fun steps => absurd steps other

theorem Closes.of_stepped {begun since : Situation} {reply : Except Failure α}
    {f : α → Operation.Outcome}
    (stepped : Stepped id asStored accounted ((∃ f, reply = .error f) ∧ Unread id begun) since s)
    (goesOn : u ≠ .operation (.cancel id)) :
    u.Closes id asStored accounted begun since (reply.map f) s where
  toFinishes := stepped.toFinishes
  cancels := fun same => absurd same goesOn
  steps := fun _ => by
    refine stepped.of_core ?_ rfl
    rintro ⟨⟨f, rfl⟩, unread⟩
    exact .inr ⟨⟨f, rfl⟩, unread⟩

/-- What attends to a conversation under the name of an undertaking. -/
theorem attends_outcome {x : Engine α} {f : α → Reply} {may : String → Prop}
    {mid : Situation → α → Situation → Prop} (attends : Engine.Attends id asStored may x s s mid)
    (named : u.id? = some id)
    (allowed : ∀ call, may call → u = .operation (.resolve id call .approve))
    (closes : ∀ since a s', mid since a s' →
      u.Closes id asStored accounted s since (f a) s') :
    ((do return f (← x) : Engine Reply) s).Abides (Spares id) (Tends id asStored)
      (u.Poses id asStored) (u.Closes id asStored accounted s) s := by
  have poses (s : Situation) (q : Question) (asks : Asks id asStored may s q) :
      u.Poses id asStored s q := by
    refine ⟨named, asks.claimed, asks.solid, asks.stored, fun faithful acts => ?_⟩
    refine (asks.acts faithful acts).imp_right fun ⟨runs, call, approved, awaits⟩ => ?_
    exact ⟨runs, call, allowed call approved, awaits⟩
  have posed : (x s).Abides (Spares id) (Tends id asStored) (u.Poses id asStored) mid s :=
    attends.mono poses fun _ _ _ holds => holds
  apply Activity.abides_bind posed
  intro since a s' holds
  exact closes since a s' holds

/-- Whoever finds the conversation free attends to it. -/
theorem perform_attends (subject : u.subject s = some id) (free : id ∉ s.claimed)
    (sound : s.store.Sound) (pausing : asStored → s.store.Holds Pauses)
    (stored : asStored → u.UsesStore) :
    (u.perform s).Abides (Spares id) (Tends id asStored) (u.Poses id asStored)
      (u.Closes id asStored (Accounted id s) s) s := by
  have nothing (call : String) (never : False) : u = .operation (.resolve id call .approve) :=
    never.elim
  have idle {s' : Situation} (same : s'.core = s.core) : Finishes id asStored s s' :=
    ⟨.of_core same, by rwa [Situation.claimed_of_core same]⟩
  cases u with
  | registration flow => cases subject
  | stepWith c =>
    obtain rfl := Option.some.inj subject
    exact attends_outcome (Engine.stepWith_attends rfl free stored) rfl nothing
      fun _ _ _ finishes => .of_finishes finishes not_false (by simp)
  | operation op =>
    cases op with
    | start chosen flow message =>
      have finishes : (Engine.start chosen flow message s).Ends fun _ s' =>
          Finishes id asStored s s' :=
        Engine.start_finishes (Option.some.inj subject) rfl free flow message
      apply Activity.abides_bind_ends finishes
      intro reply s' done
      exact .of_finishes done not_false (by simp)
    | post _ text =>
      obtain rfl := Option.some.inj subject
      exact attends_outcome (Engine.post_attends rfl free sound pausing text) rfl nothing
        fun _ _ _ finishes => .of_finishes finishes not_false (by simp)
    | step _ =>
      obtain rfl := Option.some.inj subject
      exact attends_outcome (Engine.step_attends rfl free sound pausing (fun same => same)
        fun same => same) rfl nothing fun _ _ _ stepped => .of_stepped stepped (by simp)
    | run _ most =>
      obtain rfl := Option.some.inj subject
      exact attends_outcome (Engine.run_attends rfl free sound pausing (fun same => same)
        (fun same => same) most) rfl nothing fun _ _ _ stepped => .of_stepped stepped (by simp)
    | cancel _ =>
      obtain rfl := Option.some.inj subject
      refine attends_outcome (Engine.cancel_attends rfl free sound pausing) rfl nothing
        fun since reply s' holds => ?_
      refine ⟨holds.1, fun _ done => holds.2 ?_, False.elim⟩
      cases reply with
      | error f => cases done
      | ok done => rfl
    | setRecording _ enabled =>
      obtain rfl := Option.some.inj subject
      exact attends_outcome (Engine.setRecording_attends rfl free sound pausing enabled) rfl nothing
        fun _ _ _ finishes => .of_finishes finishes not_false (by simp)
    | resolve _ call decision =>
      obtain rfl := Option.some.inj subject
      refine attends_outcome (Engine.resolve_attends rfl free sound pausing call decision) rfl ?_
        fun _ _ _ finishes => .of_finishes finishes not_false (by simp)
      rintro _ ⟨rfl, rfl⟩
      rfl
    | enableTrace _ =>
      obtain rfl := Option.some.inj subject
      exact attends_outcome (Engine.setRecording_attends rfl free sound pausing true) rfl nothing
        fun _ _ _ finishes => .of_finishes finishes not_false (by simp)
    | resumeTrace _ =>
      obtain rfl := Option.some.inj subject
      exact attends_outcome (Engine.resumeTrace_attends rfl free sound pausing) rfl nothing
        fun _ _ _ finishes => .of_finishes finishes not_false (by simp)
    | currentRecord _ =>
      apply Activity.abides_bind_ends (Engine.currentRecord_ends _ s)
      intro reply s' same
      exact .of_finishes (idle same) not_false (by simp)
    | goBack _ =>
      apply Activity.abides_bind_ends (Engine.goBack_ends _ s)
      intro reply s' same
      exact .of_finishes (idle same) not_false (by simp)
    | goForward _ =>
      obtain rfl := Option.some.inj subject
      refine attends_outcome (Engine.goForward_attends rfl free sound pausing fun same => same) rfl
        nothing fun since reply s' stepped => ?_
      exact ⟨stepped.toFinishes, by simp, fun _ => stepped.of_core (fun _ => .inl rfl) rfl⟩

end Undertaking

end DialogueEngine
