import DialogueEngine.Proofs.Engine.Requests
import DialogueEngine.Proofs.Engine.Undertaking

/-!
What operations do to the calls that are due in a conversation. Calls become due by a request to
approve them and in no other way; and one that has been approved and run is due no more, unless the
write is refused that was to tell so.
-/

namespace DialogueEngine

open Conversation (Engaged Passes Pauses Ready)
open Situation (Announces Grows Spares Steady)

variable {id : String} {k : Charge} {c d : Conversation}

theorem Charge.countP_of_bare {c' : Conversation} (k : Charge) (same : c'.bare = c.bare) :
    c'.pending.countP k.fits = c.pending.countP k.fits := by
  have calls : c'.pending.map ToolCall.bare = c.pending.map ToolCall.bare :=
    (congrArg Conversation.pending same :)
  have fits (calls : List ToolCall) :
      (calls.map ToolCall.bare).countP k.fits = calls.countP k.fits := by
    rw [List.countP_map]
    rfl
  rw [← fits c'.pending, calls, fits]

namespace Situation

variable {s s' s'' since : Situation}

theorem due_of_found (found : s.store.backing.get id = .ok (some c)) :
    s.due id k = c.pending.countP k.fits := by
  rw [due, found]

theorem due_le_of_keeps (named : c.id = id) (keeps : s.store.Keeps c) :
    s.due id k ≤ c.pending.countP k.fits := by
  subst named
  unfold due
  split
  · next c' found => exact (k.countP_of_bare (keeps.bare found)).le
  · exact Nat.zero_le _

/-- What is due after a write was so before, or is pending in what has been written. -/
theorem due_saving (named : c.id = id) (s : Situation) :
    (s.saving c).due id k = s.due id k ∨ (s.saving c).due id k ≤ c.pending.countP k.fits := by
  rcases Store.put_cases c s.store with ⟨-, kept⟩ | ⟨-, -, same⟩
  · exact .inr (due_le_of_keeps named kept)
  · exact .inl (due_of_backing same)

/-- A relation between situations of which the later has more requests. -/
abbrev More (id : String) (k : Charge) (s s' : Situation) : Prop :=
  s.requested id k ≤ s'.requested id k

theorem lasting_more (id : String) (k : Charge) : Lasting (More id k) where
  refl := fun _ => Nat.le_refl _
  trans := Nat.le_trans
  touches := fun change => ((steady_grows id k).touches change).requested
  wrote := fun _ _ => Nat.le_refl _

theorem conducts_more (id own : String) (k : Charge) : Conducts (More id k) own where
  toLasting := lasting_more id k
  starts := fun _ _ _ => (List.prefix_append _ _).sublist.countP_le
  claims := fun _ => Nat.le_refl _
  releases := fun _ => Nat.le_refl _

namespace Grows

theorem of_core (same : s'.core = s.core) (more : More id k s s') : Grows id k s s' :=
  .of_due (due_of_backing (backing_of_core same)).le more

/-- Writing what has been announced. -/
theorem saving_announced (grows : Grows id k since s) (named : d.id = id)
    (announced : Announces id k d.pending since s) : Grows id k since (s.saving d) := by
  have before := grows.due
  have more : More id k s (s.saving d) := Nat.le_refl _
  refine ⟨grows.requested, ?_⟩
  have requested : (s.saving d).requested id k = s.requested id k := rfl
  unfold Announces at announced
  rcases due_saving (k := k) named s with same | fewer <;> omega

/-- Writing no more than is due. -/
theorem saving_due (grows : Grows id k since s) (named : d.id = id)
    (fewer : d.pending.countP k.fits ≤ s.due id k) : Grows id k since (s.saving d) := by
  refine grows.trans (.of_due ?_ (Nat.le_refl _))
  rcases due_saving (k := k) named s with same | fewer' <;> omega

end Grows

/-- What is done elsewhere: it spares a conversation and withdraws no request. -/
structure Beside (id : String) (k : Charge) (s s' : Situation) : Prop extends Spares id s s' where
  more : More id k s s'

theorem Beside.due (beside : Beside id k s s') : s'.due id k = s.due id k := by
  rw [Situation.due, Backing.get_of_entry beside.entry, Situation.due]

theorem Beside.grows (beside : Beside id k s s') : Grows id k s s' :=
  .of_due beside.due.le beside.more

theorem Beside.trans (first : Beside id k s s') (second : Beside id k s' s'') : Beside id k s s'' :=
  ⟨first.toSpares.trans second.toSpares, first.more.trans second.more⟩

end Situation

namespace Engine

open Situation (Beside More lasting_more steady_grows)

variable {α : Type} {since s : Situation}

/-! ## Steps -/

/-- A computation under which more calls become due only as far as their approval is requested, as
long as others spare the conversation. -/
abbrev Tallies (id : String) (k : Charge) (x : Engine α) (since s : Situation)
    (post : Situation → α → Situation → Prop) : Prop :=
  (x s).Abides (Beside id k) (Grows id k) (fun _ _ => True) post since

/-- What a step leaves, and what a run goes on with. -/
structure Tallied (id : String) (k : Charge) (since : Situation) (o : StepResult) (s : Situation) :
    Prop where
  grows : Grows id k since s
  goesOn : o.continues = true → o.conversation.id = id ∧ o.conversation.pending = []

theorem Tallied.rests {o : StepResult} (grows : Grows id k since s) (stays : o.continues = false) :
    Tallied id k since o s :=
  ⟨grows, fun goes => by simp [stays] at goes⟩

theorem failStep_tallied (grows : Grows id k since s) (named : c.id = id) (f : Failure) :
    (failStep c f s).Ends fun o s' => Tallied id k since o s' := by
  refine ((upholds_failStep (lasting_more id k) c f).ends (lasting_more id k).toSteady
    (failStep_ends c f s)).mono (fun _ asked => asked) ?_
  rintro o s' ⟨⟨now, rfl, same⟩, more⟩
  have given : Grows id k since (s.saving (c.giveUp f now)) :=
    grows.saving_due named (Nat.zero_le _)
  exact .rests (given.trans (.of_core same more)) rfl

/-- A step that has run its node leaves due what it has announced. -/
theorem completeStep_tallied {node : Node} {run : Visit} (grows : Grows id k since s)
    (named : c.id = id) (pauses : c.Pauses) (announced : Announces id k c.pending since s)
    (before : Option Json) :
    (completeStep node c before run s).Ends fun o s' => Tallied id k since o s' := by
  refine ((upholds_completeStep (lasting_more id k) node c before run).ends
    (lasting_more id k).toSteady (completeStep_ends node c before run s)).mono
    (fun _ asked => asked) ?_
  rintro o s' ⟨⟨noted, now, concludes⟩, more⟩
  have own : (c.conclude node run before noted now).id = id := by simpa using named
  have saved : Grows id k since (s.saving (c.conclude node run before noted now)) :=
    grows.saving_announced own (by simpa using announced)
  cases concludes with
  | saved written same =>
    refine ⟨saved.trans (.of_core same more), fun goes => ⟨own, ?_⟩⟩
    have running : (c.conclude node run before noted now).status = .running := by
      simp only [StepResult.continues, Bool.and_eq_true, decide_eq_true_eq] at goes
      exact goes.1.1.2
    exact (Conversation.conclude_pauses pauses node run before noted now).pending_eq_nil
      (by simp [running])
  | @refused _ f refused now same =>
    have given : Grows id k since ((s.saving (c.conclude node run before noted _)).saving
        ((c.conclude node run before noted _).giveUp f now)) :=
      saved.saving_due own (Nat.zero_le _)
    exact .rests (given.trans (.of_core same more)) rfl

/-- What a node leaves pending has been announced. -/
theorem visit_tallies (grows : Grows id k since s) (ready : c.Ready) (pauses : c.Pauses)
    (node : Node) : Tallies id k (visit node c.leavePause) since s fun since found s' =>
      Grows id k since s' ∧ Visits node c.leavePause found ∧
        (found.1.id = id → Announces id k found.1.pending since s') := by
  have visits : Keeps (.lenient s.settings False) False (visit node c.leavePause)
      (Visits node c.leavePause) := keeps_visit False.elim ⟨c, trivial, ready, rfl⟩
  have kept (s₁ s₂ : Situation) (orderly : (Regime.lenient s.settings False).Orderly s₁)
      (beside : Beside id k s₁ s₂) : (Regime.lenient s.settings False).Orderly s₂ :=
    Regime.orderly_lenient (beside.settings.trans orderly.settings) False.elim
  have raises : Raises id k (fun _ _ => True) (visit node c.leavePause) _ :=
    raises_visit node c.leavePause
  have raised := (raises since s grows trivial).relying fun _ _ beside => Beside.grows beside
  have both := raised.and_meets (visits s (Regime.orderly_lenient rfl False.elim)) kept
  refine both.mono (fun _ _ asked => asked) ?_
  rintro since ⟨c', result⟩ s' ⟨⟨grows, announces⟩, -, visited⟩
  refine ⟨grows, visited, fun named => ?_⟩
  have none : c.leavePause.pending = [] := ready.leavePause_pending pauses
  have nothing (same : c'.pending = c.leavePause.pending) : Announces id k c'.pending since s' := by
    rw [same, none]
    exact grows.announces_nil
  cases result with
  | error f => exact nothing (Engaged.pending visited)
  | ok run =>
    obtain ⟨action, prepared, executed⟩ := run
    have passes : Passes node c.leavePause c' action := visited
    cases passes with
    | start kind prompt now => exact nothing rfl
    | turn kind engaged => exact nothing engaged.pending
    | @paused spec c' calls kind => exact announces _ spec kind rfl rfl named
    | listing kind engaged => exact nothing engaged.pending
    | finish kind now => exact nothing rfl

theorem Visits.named {node : Node} {found : Conversation × Except Failure Visit}
    (visits : Visits node c found) : found.1.id = c.id := by
  obtain ⟨c', result⟩ := found
  have framed (engaged : Engaged c c' []) : c'.id = c.id :=
    (congrArg Conversation.id engaged.frame :)
  cases result with
  | error f => exact framed visits
  | ok run =>
    obtain ⟨action, prepared, executed⟩ := run
    have passes : Passes node c c' action := visits
    cases passes with
    | start kind prompt now => rfl
    | turn kind engaged => exact framed engaged
    | @paused spec c' calls kind engaged some =>
      have calling : calls.isEmpty = false := by simpa using some
      have named : c'.id = c.id := (congrArg Conversation.id engaged.frame :)
      simpa [Conversation.pauseFor, calling] using named
    | listing kind engaged => exact framed engaged
    | finish kind now => rfl

theorem stepNode_tallies (grows : Grows id k since s) (named : c.id = id) (ready : c.Ready)
    (pauses : c.Pauses) (node : Node) :
    Tallies id k (stepNode node c) since s (Tallied id k) := by
  unfold stepNode
  dsimp only
  generalize (if c.leavePause.debugMode = true then some c.leavePause.snapshot else none) = before
  have told : (publish (.stepStarted c.leavePause.id node.id) s).Ends fun _ s' =>
      Grows id k since s' := grows.trans (.of_published rfl (List.prefix_append _ _))
  apply Activity.abides_bind_ends told
  intro _ s₁ grows
  apply Activity.abides_bind (visit_tallies grows ready pauses node)
  rintro since ⟨c', result⟩ s₂ ⟨grows, visits, announces⟩
  have own : c'.id = id := visits.named.trans ((Conversation.leavePause_id c).trans named)
  apply Activity.abides_bind_ends (takeCancel_ends c'.id s₂)
  rintro cancel s₃ ⟨rfl, -⟩
  have taken : Grows id k since (s₂.taking c'.id) := grows.trans (.of_published rfl List.prefix_rfl)
  cases result with
  | ok run =>
    have passes : Passes node c.leavePause c' run.action := visits
    have pausing := passes.pauses (ready.leavePause_pending pauses) ready.leavePause_status
    have announced : Announces id k (c'.arrive node cancel).pending since (s₂.taking c'.id) := by
      rw [Conversation.arrive_pending]
      exact announces own
    exact (completeStep_tallied taken (by simpa using own)
      (Conversation.arrive_pauses pausing node cancel) announced _).abides fun _ _ left => left
  | error f =>
    have fails {s₄ : Situation} (grows : Grows id k since s₄) (noted : Instant) :
        (failStep ((c'.arrive node cancel).noteFailure node before f noted) f s₄).Ends fun o s' =>
          Tallied id k since o s' := failStep_tallied grows (by simpa using own) f
    cases before with
    | none => exact (fails taken s₂.clock.tick.1.instant).abides fun _ _ left => left
    | some before =>
      have noting : (now (s₂.taking c'.id)).Ends fun _ s' => Grows id k since s' :=
        taken.trans (.of_published rfl List.prefix_rfl)
      apply Activity.abides_bind_ends noting
      intro noted s₄ grows
      exact (fails grows noted).abides fun _ _ left => left

theorem advance_tallies (grows : Grows id k since s) (named : c.id = id) (pauses : c.Pauses)
    (due : c.pending.countP k.fits ≤ s.due id k) :
    Tallies id k (advance c) since s (Tallied id k) := by
  have picks := (upholds_pickUpCancel (lasting_more id k) c).ends (lasting_more id k).toSteady
    (pickUpCancel_ends c s)
  apply Activity.abides_bind_ends picks
  rintro c₁ s₁ ⟨picked, more⟩
  obtain ⟨own, pausing, grows₁⟩ : c₁.id = id ∧ c₁.Pauses ∧ Grows id k since s₁ := by
    rcases picked with ⟨rfl, same, -⟩ | ⟨now, rfl, -, same⟩
    · have taken : Grows id k since (s.taking c₁.id) :=
        grows.trans (.of_published rfl List.prefix_rfl)
      exact ⟨named, pauses, taken.trans (.of_core same more)⟩
    · have taken : Grows id k since (s.taking c.id) :=
        grows.trans (.of_published rfl List.prefix_rfl)
      have written := taken.saving_due (d := { c with cancelled := true }.touch now) named due
      exact ⟨named, pauses, written.trans (.of_core same more)⟩
  split
  · next awaiting => exact .rests grows₁ (by simp [StepResult.continues, awaiting])
  next unpaused =>
  split
  · next completed => exact .rests grows₁ (by simp [StepResult.continues, completed])
  next unfinished =>
  split
  · next cancelled => exact .rests grows₁ (by simp [StepResult.continues, cancelled])
  next going =>
  have ready : c₁.Ready := ⟨unpaused, unfinished, by simpa using going⟩
  apply Activity.abides_bind_ends (graph_ends c₁.flow s₁)
  rintro found _ rfl
  split
  · exact (failStep_tallied grows₁ own _).abides fun _ _ left => left
  · exact stepNode_tallies grows₁ own ready pausing _

/-- A run goes on with what has nothing pending. -/
theorem keepGoing_tallies (budget : Nat) {o : StepResult} (tallied : Tallied id k since o s) :
    Tallies id k (keepGoing budget o) since s (Tallied id k) := by
  induction budget generalizing o since s with
  | zero => exact tallied
  | succ budget ih =>
    unfold keepGoing
    split
    · next goes =>
      obtain ⟨named, none⟩ := tallied.goesOn goes
      have running : o.conversation.status = .running := by
        simp only [StepResult.continues, Bool.and_eq_true, decide_eq_true_eq] at goes
        exact goes.1.1.2
      have pauses : o.conversation.Pauses := .of_free none (by simp [running])
      apply Activity.abides_bind (advance_tallies tallied.grows named pauses (by simp [none]))
      intro since' o' s' tallied'
      exact ih tallied'
    · exact tallied

end Engine

end DialogueEngine
