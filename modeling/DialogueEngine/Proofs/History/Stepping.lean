import DialogueEngine.Proofs.History.Custody
import DialogueEngine.Proofs.History.Nesting
import DialogueEngine.Proofs.Interaction.Answering

/-!
A run and its steps. A run keeps the conversation in hand from step to step and its claim on it to
the end, where steps that are taken one after the other give the claim back and read what was stored
each time. It comes to the same, whoever answers, as long as the store neither fails nor alters what
is put into it: after every step that lets the run go on, what is stored is what is in hand.
-/

namespace DialogueEngine

open Engine (releasing)
open Situation (Elsewhere Spares)

namespace Engine

/-! ## Steps one after the other -/

/-- Whether a run goes on after a step. -/
def goesOn : Except Failure StepResult → Bool
  | .ok o => o.continues
  | .error _ => false

/-- Takes a number of steps with a stored conversation, whatever comes of them. -/
def stepTimes (id : String) : Nat → Engine (List (Except Failure StepResult))
  | 0 => return []
  | k + 1 => do
    let outcome ← step id
    return outcome :: (← stepTimes id k)

section Answered

variable {ω : Type} (answer : (q : Question) → Situation → ω → Answer q × Situation × ω)

/-- After so many steps a run is at its end: its budget is used up, or the last step does not let it
go on. -/
def EndsRun (id : String) (most : Nat) (s : Situation) (w : ω) (k : Nat) : Prop :=
  1 ≤ k ∧ (k = max 1 most ∨
    ∃ last, ((stepTimes id k s).answered answer w).1.getLast? = some last ∧ goesOn last = false)

theorem stepTimes_succ (id : String) (k : Nat) (s : Situation) (w : ω) :
    (stepTimes id (k + 1) s).answered answer w =
      (((step id s).answered answer w).1 ::
          ((stepTimes id k ((step id s).answered answer w).2.1).answered answer
            ((step id s).answered answer w).2.2).1,
        ((stepTimes id k ((step id s).answered answer w).2.1).answered answer
            ((step id s).answered answer w).2.2).2) := by
  rw [stepTimes, Activity.answered_bind, Activity.answered_bind]
  rfl

/-- Fewer steps come to the same outcomes as far as they go. -/
theorem stepTimes_take (id : String) {j k : Nat} (fewer : j ≤ k) (s : Situation) (w : ω) :
    ((stepTimes id j s).answered answer w).1 =
      ((stepTimes id k s).answered answer w).1.take j := by
  induction j generalizing k s w with
  | zero => rfl
  | succ j ih =>
    obtain ⟨k, rfl⟩ := Nat.exists_eq_add_of_lt fewer
    rw [stepTimes_succ, show j + k + 1 = (j + k) + 1 from rfl, stepTimes_succ, List.take_succ_cons]
    exact congrArg _ (ih (Nat.le_add_right j k) _ _)

end Answered

/-! ## What a step leaves -/

/-- What a step leaves that lets a run go on has just been written. -/
theorem advance_leaves (c : Conversation) (s : Situation) :
    (advance c s).Meets (fun _ => True) (fun _ => True) fun o s' =>
      o.continues = true → ∃ b, s'.store.backing = Backing.put o.conversation b := by
  have rests {o : StepResult} {s' : Situation} (stays : o.continues = false) :
      o.continues = true → ∃ b, s'.store.backing = Backing.put o.conversation b :=
    fun goes => by simp [stays] at goes
  have fails (d : Conversation) (f : Failure) (s : Situation) :
      (failStep d f s).Meets (fun _ => True) (fun _ => True) fun o s' =>
        o.continues = true → ∃ b, s'.store.backing = Backing.put o.conversation b := by
    refine (failStep_ends d f s).meets.mono (fun _ asked => asked) ?_
    rintro o s' ⟨now, rfl, -⟩
    exact rests rfl
  apply Activity.meets_bind (Activity.Yields.always _ _)
  intro c₁ s₁ _
  split
  · next awaiting => exact rests (by simp [StepResult.continues, awaiting])
  split
  · next completed => exact rests (by simp [StepResult.continues, completed])
  split
  · next cancelled => exact rests (by simp [StepResult.continues, cancelled])
  apply Activity.meets_bind (Activity.Yields.always _ _)
  intro found s₂ _
  split
  · exact fails _ _ _
  apply Activity.meets_bind (Activity.Yields.always _ _)
  intro _ s₃ _
  apply Activity.meets_bind (Activity.Yields.always _ _)
  rintro ⟨c', result⟩ s₄ -
  apply Activity.meets_bind (Activity.Yields.always _ _)
  intro cancel s₅ _
  cases result with
  | ok run =>
    refine (completeStep_ends _ _ _ run s₅).meets.mono (fun _ asked => asked) ?_
    rintro o s' ⟨noted, now, concludes⟩
    cases concludes with
    | saved written same =>
      refine fun _ => ⟨s₅.store.backing, ?_⟩
      rw [Situation.backing_of_core same]
      exact Store.backing_of_put written
    | refused refused now same => exact rests rfl
  | error f =>
    dsimp only
    split
    · exact fails _ _ _
    · apply Activity.meets_bind (Activity.Yields.always _ _)
      intro noted s₆ _
      exact fails _ _ _

/-! ## Steps that are answered -/

section Answered

variable {ω : Type} {answer : (q : Question) → Situation → ω → Answer q × Situation × ω}
  {regular : Conversation → Prop} {claims : List String} {id : String}

/-- A situation in the middle of a run that has run so many nodes of its conversation at most. -/
structure Going (id : String) (regular : Conversation → Prop) (claims : List String) (n : Nat)
    (s : Situation) : Prop where
  claimed : s.claimed = id :: claims
  dependable : s.store.Dependable regular
  few : (s.starts id).length ≤ n

/-- A run is under way in a situation with a sound store. -/
structure UnderWay (id : String) (regular : Conversation → Prop) (claims : List String) (n : Nat)
    (s : Situation) : Prop extends Going id regular claims n s where
  sound : s.store.Sound

theorem Going.mono {n m : Nat} {s : Situation} (going : Going id regular claims n s)
    (more : n ≤ m) : Going id regular claims m s :=
  { going with few := going.few.trans more }

theorem lasting_going (id : String) (regular : Conversation → Prop) (claims : List String)
    (n : Nat) : Situation.Lasting fun s s' =>
      Going id regular claims n s → Going id regular claims n s' := by
  have calm := Situation.conducts_calm regular id
  refine .of_inv (fun s s' change going => ?_) fun s c going =>
    ⟨going.claimed, (calm.wrote s c).dependable going.dependable, going.few⟩
  refine ⟨?_, (calm.touches change).dependable going.dependable, ?_⟩
  · cases change <;> exact going.claimed
  · cases change with
    | @published e other =>
      have untold : e.starts id = false := by
        cases tells : e.starts id with
        | false => rfl
        | true => simp [Event.isStart_of_starts tells] at other
      simpa [Situation.starts, untold] using going.few
    | _ => exact going.few

/-- A step runs one node at most. -/
theorem advance_goes {n : Nat} {c : Conversation} {s : Situation} (named : c.id = id)
    (going : Going id regular claims n s) :
    (advance c s).Abides
      (fun s s' => Going id regular claims (n + 1) s → Going id regular claims (n + 1) s')
      (fun s s' => Going id regular claims (n + 1) s → Going id regular claims (n + 1) s')
      (fun _ _ => True)
      (fun s _ s' => Going id regular claims (n + 1) s → Going id regular claims (n + 1) s') s := by
  refine advance_abides (lasting_going id regular claims (n + 1))
    (lasting_going id regular claims n)
    (fun s' kept _ => (kept going).mono (Nat.le_add_right n 1)) fun s' node kept _ => ?_
  have going' := kept going
  exact ⟨going'.claimed, going'.dependable, by
    simpa [Situation.starts, Event.starts, named] using going'.few⟩

/-- A step goes on being under way, and if it lets the run go on then what is in hand has just been
written. -/
theorem advance_answered (nested : ∀ q s w, Meanwhile s (answer q s w).2.1) {n : Nat}
    {c : Conversation} {s : Situation} (named : c.id = id) (solid : Text.isBlankText id = false)
    (underWay : UnderWay id regular claims n s) (w : ω) {o : StepResult} {s' : Situation} {w' : ω}
    (steps : (advance c s).answered answer w = (o, s', w')) :
    UnderWay id regular claims (n + 1) s' ∧ (o.continues = true →
      o.conversation.id = id ∧ ∃ b, s'.store.backing = Backing.put o.conversation b) := by
  have claimed : id ∈ s.claimed := by
    rw [underWay.claimed]
    exact List.mem_cons_self
  have holding : Holding id False False s s c :=
    ⟨named, solid, .refl id False s, claimed, False.elim⟩
  have attends : Attends id False (fun _ => False) (advance c) s s (Advances id False False) :=
    advance_attends holding
  have abides := (attends.and (advance_goes named underWay.toGoing)).and_meets (advance_leaves c s)
    fun _ _ _ _ => trivial
  have begun : UnderWay id regular claims (n + 1) s :=
    ⟨underWay.toGoing.mono (Nat.le_add_right n 1), underWay.sound⟩
  have answers (q : Question) (s : Situation) (w : ω)
      (holds : UnderWay id regular claims (n + 1) s) :
      (Spares id s (answer q s w).2.1 ∧ (Going id regular claims (n + 1) s →
        Going id regular claims (n + 1) (answer q s w).2.1)) ∧
      UnderWay id regular claims (n + 1) (answer q s w).2.1 := by
    have away : Elsewhere regular s (answer q s w).2.1 := (nested q s w).elsewhere holds.sound
    have spares := away.spares id (holds.claimed ▸ List.mem_cons_self)
    have going : Going id regular claims (n + 1) (answer q s w).2.1 :=
      ⟨away.claimed.trans holds.claimed, away.dependable holds.dependable,
        spares.starts ▸ holds.few⟩
    exact ⟨⟨spares, fun _ => going⟩, going, away.sound⟩
  obtain ⟨since, upheld, ⟨advances, goes⟩, leaves⟩ := abides.answered begun
    (fun _ _ changed before => ⟨changed.2 before.toGoing, changed.1.sound before.sound⟩) answers w
  rw [steps] at advances goes leaves
  exact ⟨⟨goes upheld.toGoing, advances.tends.sound upheld.sound⟩,
    fun goesOn => ⟨(advances.goesOn goesOn).named, leaves goesOn⟩⟩

/-- A situation in which a conversation is claimed as well. -/
def seizing (id : String) (s : Situation) : Situation := { s with claimed := id :: s.claimed }

section Claiming

variable {α : Type} (rest : Conversation → Engine (Except Failure α)) {s : Situation}
  (free : id ∉ s.claimed)
include free

/-- What is found is worked on while it is claimed. -/
theorem claiming_found {c : Conversation}
    (loaded : load id (seizing id s) = .done (seizing id s) (.ok c)) :
    (claiming id do
        match ← load id with
        | .error f => return .error f
        | .ok c => rest c) s =
      (rest c (seizing id s)).andThen fun reply s' => .done (releasing id s') reply := by
  unfold claiming
  rw [Activity.bind_run, tryClaim_free free]
  change ((load id (seizing id s)).andThen _).andThen _ = _
  rw [loaded]
  rfl

theorem claiming_unfound {f : Failure}
    (failed : load id (seizing id s) = .done (seizing id s) (.error f)) :
    (claiming id do
        match ← load id with
        | .error f => return .error f
        | .ok c => rest c) s =
      .done (releasing id (seizing id s)) (.error f) := by
  unfold claiming
  rw [Activity.bind_run, tryClaim_free free]
  change ((load id (seizing id s)).andThen _).andThen _ = _
  rw [failed]
  rfl

end Claiming

/-- What is given back can be claimed again as it was. -/
theorem claim_releasing (free : id ∉ claims) {s : Situation} (claimed : s.claimed = id :: claims) :
    id ∉ (releasing id s).claimed ∧ seizing id (releasing id s) = s := by
  have others : (releasing id s).claimed = claims := by
    have kept : claims.filter (· != id) = claims :=
      List.filter_eq_self.2 fun other member => bne_iff_ne.2 fun same => free (same ▸ member)
    simp [releasing, claimed, kept]
  rw [seizing, others, ← claimed]
  exact ⟨free, rfl⟩

section Found

variable {s : Situation} {c : Conversation} (free : id ∉ s.claimed)
  (loaded : load id (seizing id s) = .done (seizing id s) (.ok c))
  (answer : (q : Question) → Situation → ω → Answer q × Situation × ω) (w : ω) {o : StepResult}
  {s' : Situation} {w' : ω}
  (taken : (advance c (seizing id s)).answered answer w = (o, s', w'))
include free loaded taken

/-- A step with a stored conversation that is taken with the conversation at hand. -/
theorem step_found : (step id s).answered answer w = (.ok o, releasing id s', w') := by
  have works := claiming_found (fun c => do return .ok (← advance c)) free loaded
  calc (step id s).answered answer w = _ := congrArg (·.answered answer w) works
    _ = _ := by
      rw [Interaction.answered_andThen, Activity.answered_bind, taken]
      rfl

theorem run_found (most : Nat) {last : StepResult} {s'' : Situation} {w'' : ω}
    (goes : (keepGoing (most - 1) o s').answered answer w' = (last, s'', w'')) :
    (run id most s).answered answer w = (.ok last, releasing id s'', w'') := by
  have works := claiming_found
    (fun c => do
      let o ← advance c
      return .ok (← keepGoing (most - 1) o)) free loaded
  calc (run id most s).answered answer w = _ := congrArg (·.answered answer w) works
    _ = _ := by
      rw [Interaction.answered_andThen, Activity.answered_bind, taken, Activity.answered_bind, goes]
      rfl

end Found

/-- How a run that has come to an outcome goes on: the outcomes of the further steps, and where it
stands in the end. -/
structure GoesOn (answer : (q : Question) → Situation → ω → Answer q × Situation × ω) (id : String)
    (budget : Nat) (s : Situation) (w : ω) (first : Except Failure StepResult)
    (rest : List (Except Failure StepResult)) (s' : Situation) (w' : ω) : Prop where
  few : rest.length ≤ budget
  going : ∀ outcome ∈ (first :: rest).dropLast, goesOn outcome = true
  ends : rest.length = budget ∨ goesOn ((first :: rest).getLast (List.cons_ne_nil _ _)) = false
  steps : (stepTimes id rest.length s).answered answer w = (rest, s', w')

/-- A run that goes on takes the steps that can be taken one after the other from where the
conversation is given back. -/
theorem keepGoing_steps (nested : ∀ q s w, Meanwhile s (answer q s w).2.1)
    (solid : Text.isBlankText id = false) (free : id ∉ claims) {n : Nat} (budget : Nat)
    {o : StepResult} {s : Situation} {w : ω} (underWay : UnderWay id regular claims n s)
    (left : o.continues = true →
      o.conversation.id = id ∧ ∃ b, s.store.backing = Backing.put o.conversation b)
    (first : regular o.conversation)
    (returns : ∀ k o, .ok o ∈ ((stepTimes id k (releasing id s)).answered answer w).1 →
      regular o.conversation) :
    ∃ rest last s' w', (keepGoing budget o s).answered answer w = (last, s', w') ∧
      GoesOn answer id budget (releasing id s) w (.ok o) rest (releasing id s') w' ∧
      (.ok last = (Except.ok o :: rest).getLast (List.cons_ne_nil _ _)) ∧
      UnderWay id regular claims (n + budget) s' := by
  induction budget generalizing n o s w with
  | zero => exact ⟨[], o, s, w, rfl, ⟨Nat.le_refl 0, by simp, .inl rfl, rfl⟩, rfl, underWay⟩
  | succ budget ih =>
    cases goes : o.continues with
    | false =>
      have stops : (keepGoing (budget + 1) o s).answered answer w = (o, s, w) := by
        unfold keepGoing
        simp [goes, Interaction.answered]
      have more : UnderWay id regular claims (n + (budget + 1)) s :=
        ⟨underWay.toGoing.mono (Nat.le_add_right _ _), underWay.sound⟩
      exact ⟨[], o, s, w, stops, ⟨Nat.zero_le _, by simp, .inr goes, rfl⟩, rfl, more⟩
    | true =>
      obtain ⟨named, b, stored⟩ := left goes
      obtain ⟨again, same⟩ := claim_releasing free underWay.claimed
      -- What is in hand is what a step reads that takes the claim again.
      have found : s.store.backing.get id = .ok (some o.conversation) := by
        have kept := underWay.dependable.returns o.conversation first
        rw [Store.Returns, stored, Store.backing_get_put_put, ← stored, named] at kept
        exact kept
      have loaded : load id (seizing id (releasing id s)) =
          .done (seizing id (releasing id s)) (.ok o.conversation) := by
        rw [same]
        exact load_found underWay.dependable found
      rcases taken : (advance o.conversation s).answered answer w with ⟨o₁, s₁, w₁⟩
      obtain ⟨underWay₁, left₁⟩ := advance_answered nested named solid underWay w taken
      have stepped := step_found again loaded answer w (same.symm ▸ taken)
      have outcomes (k : Nat) : (stepTimes id (k + 1) (releasing id s)).answered answer w =
          (.ok o₁ :: ((stepTimes id k (releasing id s₁)).answered answer w₁).1,
            ((stepTimes id k (releasing id s₁)).answered answer w₁).2) := by
        rw [stepTimes_succ, stepped]
      have first₁ : regular o₁.conversation := by
        refine returns 1 o₁ ?_
        rw [outcomes]
        exact List.mem_cons_self
      obtain ⟨rest, last, s', w', kept, goesOn, same', underWay'⟩ := ih underWay₁ left₁ first₁
        fun k x member => by
          refine returns (k + 1) x ?_
          rw [outcomes]
          exact List.mem_cons_of_mem _ member
      refine ⟨.ok o₁ :: rest, last, s', w', ?_, ⟨Nat.succ_le_succ goesOn.few, ?_, ?_, ?_⟩, same',
        ?_⟩
      · unfold keepGoing
        rw [if_pos goes, Activity.answered_bind, taken]
        exact kept
      · intro outcome member
        rcases List.mem_cons.1 member with rfl | later
        · exact goes
        · exact goesOn.going outcome later
      · exact goesOn.ends.imp (congrArg Nat.succ) fun stops => stops
      · rw [List.length_cons, outcomes, goesOn.steps]
      · exact ⟨underWay'.toGoing.mono (by omega), underWay'.sound⟩

/-- A run is a first step and those with which it goes on, and runs no more nodes than it may. -/
structure Unrolls (answer : (q : Question) → Situation → ω → Answer q × Situation × ω) (id : String)
    (most : Nat) (s : Situation) (w : ω) (first : Except Failure StepResult)
    (rest : List (Except Failure StepResult)) (s' : Situation) (w' : ω) : Prop where
  stepped : ∃ s₁ w₁, (step id s).answered answer w = (first, s₁, w₁) ∧
    GoesOn answer id (most - 1) s₁ w₁ first rest s' w'
  ran : (run id most s).answered answer w =
    ((first :: rest).getLast (List.cons_ne_nil _ _), s', w')
  few : (s'.starts id).length ≤ (s.starts id).length + max 1 most

/-- A run that is refused, or finds no conversation, is one step. -/
theorem unrolls_of_error {most : Nat} {s s' : Situation} {f : Failure}
    (stepped : step id s = .done s' (.error f)) (ran : run id most s = .done s' (.error f))
    (same : s'.published = s.published) (w : ω) :
    Unrolls answer id most s w (.error f) [] s' w where
  stepped := ⟨s', w, by rw [stepped]; rfl, Nat.zero_le _, by simp, .inr rfl, rfl⟩
  ran := by rw [ran]; rfl
  few := by
    rw [Situation.starts, same]
    exact Nat.le_add_right _ _

/-- A run that finds its conversation. -/
theorem unrolls_of_found (nested : ∀ q s w, Meanwhile s (answer q s w).2.1) {most : Nat}
    {s : Situation} {c : Conversation} (free : id ∉ s.claimed) (sound : s.store.Sound)
    (dependable : s.store.Dependable s.store.Returns)
    (found : s.store.backing.get id = .ok (some c)) (w : ω)
    (returns : ∀ k o, .ok o ∈ ((stepTimes id k s).answered answer w).1 →
      s.store.Returns o.conversation) :
    ∃ first rest s' w', Unrolls answer id most s w first rest s' w' := by
  have loaded : load id (seizing id s) = .done (seizing id s) (.ok c) := load_found dependable found
  obtain ⟨solid, c₀, -, kept, bare⟩ := sound id c found
  have named : c.id = id := (congrArg Conversation.id bare :).trans kept
  have underWay : UnderWay id s.store.Returns s.claimed (s.starts id).length (seizing id s) :=
    ⟨⟨rfl, dependable, Nat.le_refl _⟩, sound⟩
  rcases taken : (advance c (seizing id s)).answered answer w with ⟨o, s₁, w₁⟩
  obtain ⟨underWay₁, left⟩ := advance_answered nested named solid underWay w taken
  have stepped := step_found free loaded answer w taken
  have later (k : Nat) (x : StepResult)
      (member : .ok x ∈ ((stepTimes id k (releasing id s₁)).answered answer w₁).1) :
      s.store.Returns x.conversation := by
    refine returns (k + 1) x ?_
    rw [stepTimes_succ, stepped]
    exact List.mem_cons_of_mem _ member
  have first : s.store.Returns o.conversation := by
    refine returns 1 o ?_
    rw [stepTimes_succ, stepped]
    exact List.mem_cons_self
  obtain ⟨rest, last, s', w', goes, goesOn, same, underWay'⟩ :=
    keepGoing_steps nested solid free (most - 1) underWay₁ left first later
  refine ⟨.ok o, rest, releasing id s', w', ⟨_, _, stepped, goesOn⟩, ?_, ?_⟩
  · rw [← same]
    exact run_found free loaded answer w taken most goes
  · refine underWay'.few.trans ?_
    omega

/-- The outcomes of a run's steps are as many as it takes to end it. -/
theorem Unrolls.isLeast {most : Nat} {s s' : Situation} {w w' : ω}
    {first : Except Failure StepResult} {rest : List (Except Failure StepResult)}
    (unrolls : Unrolls answer id most s w first rest s' w') :
    IsLeast {k | EndsRun answer id most s w k} (rest.length + 1) ∧
      (stepTimes id (rest.length + 1) s).answered answer w = (first :: rest, s', w') := by
  obtain ⟨s₁, w₁, stepped, goes⟩ := unrolls.stepped
  have outcomes : (stepTimes id (rest.length + 1) s).answered answer w =
      (first :: rest, s', w') := by
    rw [stepTimes_succ, stepped, goes.steps]
  refine ⟨⟨⟨Nat.le_add_left 1 _, ?_⟩, fun j ends => ?_⟩, outcomes⟩
  · refine goes.ends.imp (fun used => by omega) fun stops => ?_
    rw [outcomes]
    exact ⟨_, List.getLast?_eq_some_getLast _, stops⟩
  obtain ⟨some, used | ⟨last, final, stops⟩⟩ := ends
  · have few := goes.few
    omega
  -- All outcomes but the last let the run go on, so none of them can end it.
  by_contra fewer
  rw [stepTimes_take answer id (by omega : j ≤ rest.length + 1), outcomes] at final
  have inside : last ∈ (first :: rest).dropLast := by
    rw [List.dropLast_eq_take]
    exact List.take_subset_take_left _ (by simp; omega) (List.mem_of_getLast? final)
  exact absurd (goes.going last inside) (by simp [stops])

end Answered

/-- A run does what its steps do that are taken one after the other, as many as it takes until the
budget is used up or an outcome does not let it go on: whoever answers and whatever is carried out
meanwhile, the last outcome is the outcome of the run, all that is shared is left the same, and so
is what the one who answers remembers of the questions. In particular no more nodes of the
conversation are run than the budget allows. -/
theorem run_eq_steps {ω : Type} (answer : (q : Question) → Situation → ω → Answer q × Situation × ω)
    (nested : ∀ q s w, Meanwhile s (answer q s w).2.1) (id : String) (most : Nat) (s : Situation)
    (w : ω) (sound : s.store.Sound) (reads : s.store.readRefusals = [])
    (writes : s.store.writeRefusals = [])
    (returns : ∀ k o, .ok o ∈ ((stepTimes id k s).answered answer w).1 →
      s.store.Returns o.conversation) :
    ∃ k front last s' w', IsLeast {k | EndsRun answer id most s w k} k ∧
      (stepTimes id k s).answered answer w = (front ++ [last], s', w') ∧
      (run id most s).answered answer w = (last, s', w') ∧
      (s'.starts id).length ≤ (s.starts id).length + max 1 most := by
  obtain ⟨first, rest, s', w', unrolls⟩ :
      ∃ first rest s' w', Unrolls answer id most s w first rest s' w' := by
    by_cases free : id ∈ s.claimed
    · exact ⟨_, _, _, _, unrolls_of_error (claiming_busy _ free) (claiming_busy _ free) rfl w⟩
    have dependable : s.store.Dependable s.store.Returns := ⟨reads, writes, fun _ fits => fits⟩
    by_cases found : ∃ c, s.store.backing.get id = .ok (some c)
    · obtain ⟨c, found⟩ := found
      exact unrolls_of_found nested free sound dependable found w returns
    · obtain ⟨f, failed⟩ : ∃ f, load id (seizing id s) = .done (seizing id s) (.error f) :=
        load_unfound dependable fun c there => found ⟨c, there⟩
      exact ⟨_, _, _, _, unrolls_of_error (claiming_unfound _ free failed)
        (claiming_unfound _ free failed) rfl w⟩
  obtain ⟨least, outcomes⟩ := unrolls.isLeast
  refine ⟨_, (first :: rest).dropLast, _, s', w', least, ?_, unrolls.ran, unrolls.few⟩
  rw [outcomes, List.dropLast_append_getLast]

/-! ## A run that is cancelled meanwhile -/

theorem cancel_ends (id : String) (s : Situation) : (cancel id s).Ends fun _ _ => True := by
  by_cases busy : id ∈ s.claimed
  · exact (cancel_busy busy).mono (fun _ asked => asked) fun _ _ _ => trivial
  · rw [cancel_free busy]
    apply claiming_free_ends busy
    apply Activity.meets_bind (load_ends_core id _)
    intro loaded s' _
    split <;> exact trivial

/-- Whoever answers gives one answer to everything, keeps in mind what was asked and cancels a
conversation each time. -/
def cancelling (id content : String) (q : Question) (s : Situation) (asked : List Question) :
    Answer q × Situation × List Question :=
  (modelAnswering content [] q, Work.situation ((Undertaking.operation (.cancel id)).perform s),
    asked ++ [q])

theorem meanwhile_cancelling (id content : String) (q : Question) (s : Situation)
    (asked : List Question) : Meanwhile s (cancelling id content q s asked).2.1 := by
  have ends : ((Undertaking.operation (.cancel id)).perform s).Ends fun _ _ => True :=
    Activity.meets_bind (cancel_ends id s) fun _ _ _ => trivial
  exact .undertaken _ (.of_ends ends) (.nothing _)

/-- A conversation that has been started. -/
def greeted : Situation :=
  Work.situation ((Undertaking.operation (.start (some "c") "assistant" (some "Hello"))).perform
    (Work.situation ((Undertaking.registration assistantFlow).perform
      (.fresh .standard .memory default))))

/-- A run that is cancelled while it waits for the model comes to what its two steps come to. -/
theorem cancelled_run_eq_steps :
    (((run "c" 5 greeted).answered (cancelling "c" "Hi") []).2.2.length,
      (((run "c" 5 greeted).answered (cancelling "c" "Hi") []).2.1.starts "c").length) = (1, 2) ∧
    ∃ k front last s' w', IsLeast {k | EndsRun (cancelling "c" "Hi") "c" 5 greeted [] k} k ∧
      (stepTimes "c" k greeted).answered (cancelling "c" "Hi") [] = (front ++ [last], s', w') ∧
      (run "c" 5 greeted).answered (cancelling "c" "Hi") [] = (last, s', w') ∧
      (s'.starts "c").length ≤ (greeted.starts "c").length + max 1 5 := by
  have sound : greeted.store.Sound := by
    have nothing : Unfolds (fun _ _ _ => True) (.fresh .standard .memory default) []
        ⟨.fresh .standard .memory default, []⟩ := .start
    have registered := nothing.begin (.registration assistantFlow) trivial
    have started := registered.begin
      (.operation (.start (some "c") "assistant" (some "Hello"))) trivial
    exact (started.tended False rfl (Store.IsNew.sound (.inl rfl)) False.elim False.elim).2.1.sound
  refine ⟨by decide +kernel, ?_⟩
  exact run_eq_steps (cancelling "c" "Hi") (meanwhile_cancelling "c" "Hi") "c" 5 greeted [] sound
    rfl rfl fun _ o _ => Store.returns_memory rfl o.conversation

end Engine

end DialogueEngine
