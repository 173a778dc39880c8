import DialogueEngine.Proofs.Conversation.Accounts
import DialogueEngine.Proofs.Engine.Approval
import DialogueEngine.Proofs.Engine.Minding

/-!
What advancing a conversation does to it while others may work on the rest. The conversation in hand
is the one that is stored; a step that finds it cancelled, or a request for it, leaves it cancelled
in the store unless a write is refused, and a step that could not write what a node made of the
conversation gives up the calls that wait.
-/

namespace DialogueEngine

open Conversation (Engaged Passes Pauses Ready)

namespace Situation

variable {s s' since : Situation} {c : Conversation} {id : String} {accounted : Prop}

/-! ## In hand -/

/-- What can be read of a conversation accounts for its calls. -/
def Accounted (id : String) (s : Situation) : Prop :=
  ∀ c, s.store.backing.get id = .ok (some c) → c.Accounts

/-- A write has been refused, and what the store keeps has given up calls that were pending. -/
def Drops (id : String) (s s' : Situation) : Prop :=
  Store.Refused s.store s'.store ∧
    ∃ (c : Conversation) (f : Failure) (now : Instant),
      c.id = id ∧ c.pending ≠ [] ∧ s'.store.Keeps (c.giveUp f now)

/-- A conversation at hand is the one that is stored: it is cancelled if that is, and its calls are
pending there. -/
structure InHand (id : String) (accounted : Prop) (s : Situation) (c : Conversation) : Prop where
  pauses : c.Pauses
  kept : ∃ c₀, s.store.Keeps c₀ ∧ c₀.id = id ∧ c₀.cancelled = c.cancelled
  awaits : ∀ call ∈ c.pending.map (·.id), s.store.Awaits call id
  accounts : accounted → c.Accounts ∧ Accounted id s

theorem Accounted.of_entry (same : s'.store.backing.entry id = s.store.backing.entry id)
    (accounts : Accounted id s) : Accounted id s' := by
  intro c found
  rw [Backing.get_of_entry same] at found
  exact accounts c found

theorem Drops.of_core (same : s'.core = s.core) (drops : Drops id since s) : Drops id since s' := by
  obtain ⟨refused, d, f, now, rfl, some, kept⟩ := drops
  have plan : s'.store.writeRefusals <:+ s.store.writeRefusals := by rw [plan_of_core same]
  exact ⟨refused.later plan, d, f, now, rfl, some, kept.congr (by rw [backing_of_core same])⟩

/-- A write keeps the account if what is written does. -/
theorem Accounted.saving (named : c.id = id) (accounts : c.Accounts) (before : Accounted id s) :
    Accounted id (s.saving c) := by
  subst named
  rcases Store.put_cases c s.store with ⟨-, kept⟩ | ⟨-, -, same⟩
  · exact fun c' found => accounts.of_bare (kept.bare found)
  · exact before.of_entry (congrArg (Backing.entry c.id) same)

namespace InHand

theorem of_entry (same : s'.store.backing.entry id = s.store.backing.entry id)
    (hand : InHand id accounted s c) : InHand id accounted s' c where
  pauses := hand.pauses
  kept := by
    obtain ⟨c₀, keeps, rfl, cancelled⟩ := hand.kept
    exact ⟨c₀, keeps.congr same, rfl, cancelled⟩
  awaits := fun call pending => (hand.awaits call pending).congr same
  accounts := fun accounting =>
    ⟨(hand.accounts accounting).1, (hand.accounts accounting).2.of_entry same⟩

theorem cancelled_iff (hand : InHand id accounted s c) :
    s.store.Cancelled id ↔ c.cancelled = true := by
  obtain ⟨c₀, keeps, rfl, same⟩ := hand.kept
  rw [keeps.cancelled_iff, same]

theorem stored (hand : InHand id accounted s c) : (s.store.backing.entry id).isSome := by
  obtain ⟨c₀, keeps, rfl, -⟩ := hand.kept
  exact keeps.isSome

/-- What is loaded is in hand. -/
theorem of_get (sound : s.store.Sound) (pausing : s.store.Holds Pauses)
    (accounts : accounted → Accounted id s) (found : s.store.backing.get id = .ok (some c)) :
    InHand id accounted s c where
  pauses := pausing id c found
  kept := by
    obtain ⟨-, c₀, keeps, named, bare⟩ := sound id c found
    exact ⟨c₀, keeps, named, (congrArg Conversation.cancelled bare.symm :)⟩
  awaits := fun call pending => ⟨c, found, pending⟩
  accounts := fun accounting => ⟨accounts accounting c found, accounts accounting⟩

/-- What has been written and goes on is in hand. -/
theorem of_saved (named : c.id = id) (saved : s.store.Keeps c) (pauses : c.Pauses)
    (running : c.status = .running) (accounts : accounted → c.Accounts ∧ Accounted id s) :
    InHand id accounted s c where
  pauses := pauses
  kept := ⟨c, saved, named, rfl⟩
  awaits := by
    have none : c.pending = [] := pauses.pending_eq_nil (by simp [running])
    simp [none]
  accounts := accounts

end InHand

end Situation

namespace Engine

open Situation (Accounted Drops Halted Honours InHand Spares Tends)

variable {α : Type} {s since : Situation} {c : Conversation} {id : String}
  {asStored accounted : Prop} {may : String → Prop}

/-! ## What steps are made of -/

theorem takeCancel_ends (id : String) (s : Situation) : (takeCancel id s).Ends fun cancel s' =>
    s' = s.taking id ∧ (cancel = true ↔ id ∈ s.cancelRequests) :=
  ⟨rfl, List.contains_iff_mem⟩

theorem stamp_ends (s : Situation) : (stamp s).Ends fun _ s' => s'.core = s.core := rfl

theorem now_ends (s : Situation) : (now s).Ends fun _ s' => s'.core = s.core := rfl

theorem write_ends_saving (c : Conversation) (s : Situation) : (write c s).Ends fun written s' =>
    s' = s.saving c ∧ written = (s.store.put c).1 :=
  ⟨rfl, rfl⟩

theorem publish_ends {e : Event} (other : e.isStart = false) (s : Situation) :
    (publish e s).Ends fun _ s' => s'.core = s.core :=
  Situation.core_publish other s

theorem graph_ends (flow : String) (s : Situation) : (graph flow s).Ends fun _ s' => s' = s := by
  have looks : (situation s).Ends fun _ s' => s' = s := rfl
  apply Activity.meets_bind looks
  intro seen s' same
  cases seen.flows.get? flow <;> exact same

/-- A request is picked up, or there is none, or it is of no use any more. -/
theorem pickUpCancel_ends (c : Conversation) (s : Situation) :
    (pickUpCancel c s).Ends fun c' s' =>
      (c' = c ∧ s'.core = (s.taking c.id).core ∧
        (c.id ∈ s.cancelRequests → c.cancelled = true)) ∨
      ∃ now, c' = { c with cancelled := true }.touch now ∧ c.cancelled = false ∧
        s'.core = ((s.taking c.id).saving c').core := by
  apply Activity.meets_bind (takeCancel_ends c.id s)
  intro cancel s₁ taken
  obtain ⟨rfl, requested⟩ := taken
  split
  · next picks =>
    have found : cancel = true ∧ c.cancelled = false := by simpa using picks
    apply Activity.meets_bind (now_ends _)
    intro now s₂ same
    exact .inr ⟨now, rfl, found.2, Situation.saving_of_core same _⟩
  · next keeps =>
    refine .inl ⟨rfl, rfl, fun parked => ?_⟩
    simpa [requested.2 parked] using keeps

/-- What gives a step up is written, if that is not refused. -/
theorem failStep_ends (c : Conversation) (f : Failure) (s : Situation) :
    (failStep c f s).Ends fun o s' => ∃ now, o = ⟨c.giveUp f now, .error, none⟩ ∧
      s'.core = (s.saving (c.giveUp f now)).core := by
  apply Activity.meets_bind (now_ends s)
  intro now s₁ same
  refine ⟨now, rfl, ?_⟩
  exact (Situation.core_publish rfl _).trans (Situation.saving_of_core same _)

/-- How a step ends after its node: what became of the conversation is written, or that is refused
and the step is given up. -/
inductive Concludes (s : Situation) (c : Conversation) (node : Node) (run : Visit) :
    StepResult → Situation → Prop
  | saved {s' : Situation} (written : (s.store.put c).1 = .ok ())
      (same : s'.core = (s.saving c).core) :
      Concludes s c node run ⟨c, run.action, node.next run.action⟩ s'
  | refused {s' : Situation} {f : Failure} (refused : (s.store.put c).1 = .error f)
      (now : Instant) (same : s'.core = ((s.saving c).saving (c.giveUp f now)).core) :
      Concludes s c node run ⟨c.giveUp f now, .error, none⟩ s'

theorem completeStep_ends (node : Node) (c : Conversation) (before : Option Json) (run : Visit)
    (s : Situation) : (completeStep node c before run s).Ends fun o s' =>
      ∃ noted now, Concludes s (c.conclude node run before noted now) node run o s' := by
  have ends {s₁ : Situation} (same : s₁.core = s.core) (noted now : Instant) :
      (concluding (c.conclude node run before noted now) node run s₁).Ends fun o s' =>
        Concludes s (c.conclude node run before noted now) node run o s' := by
    have result : (s₁.store.put (c.conclude node run before noted now)).1 =
        (s.store.put (c.conclude node run before noted now)).1 :=
      Store.put_fst_of_plan (Situation.plan_of_core same) _
    have saving := Situation.saving_of_core same (c.conclude node run before noted now)
    apply Activity.meets_bind (write_ends_saving _ s₁)
    intro written s₂ holds
    obtain ⟨rfl, put⟩ := holds
    split
    · next f =>
      apply (failStep_ends _ f _).mono fun _ asked => asked
      rintro o s₃ ⟨later, rfl, again⟩
      exact .refused (result.symm.trans put.symm) later
        (again.trans (Situation.saving_of_core saving _))
    · apply Activity.meets_bind (publish_ends rfl _)
      intro _ s₃ published
      exact .saved (result.symm.trans put.symm) (published.trans saving)
  unfold completeStep
  cases before with
  | none =>
    dsimp only
    rw [pure_bind]
    apply Activity.meets_bind (now_ends s)
    intro now s₁ same
    exact (ends same now now).mono (fun _ asked => asked) fun _ _ holds => ⟨now, now, holds⟩
  | some before =>
    dsimp only
    apply Activity.meets_bind (now_ends s)
    intro noted s₁ same
    rw [pure_bind]
    apply Activity.meets_bind (now_ends s₁)
    intro now s₂ later
    exact (ends (later.trans same) noted now).mono (fun _ asked => asked)
      fun _ _ holds => ⟨noted, now, holds⟩

/-! ## What is kept to -/

/-- What the one who has claimed a conversation may ask. Nobody is made to act for a conversation
that is to be cancelled, unless a call that is pending is approved that `may` be. -/
structure Asks (id : String) (asStored : Prop) (may : String → Prop) (s : Situation)
    (q : Question) : Prop where
  claimed : id ∈ s.claimed
  solid : Text.isBlankText id = false
  stored : asStored → (s.store.backing.entry id).isSome
  acts : asStored → q.acts = true →
    ¬ Halted id s ∨ q.isRun = true ∧ ∃ call, may call ∧ s.store.Awaits call id

/-- A computation tends a conversation that is claimed, as long as others spare it. -/
abbrev Attends (id : String) (asStored : Prop) (may : String → Prop) (x : Engine α)
    (since s : Situation) (post : Situation → α → Situation → Prop) : Prop :=
  (x s).Abides (Spares id) (Tends id asStored) (Asks id asStored may) post since

/-- How things stand within a stretch that began `since`, with a conversation at hand. -/
structure Holding (id : String) (asStored accounted : Prop) (since s : Situation)
    (c : Conversation) : Prop where
  named : c.id = id
  solid : Text.isBlankText id = false
  tends : Tends id asStored since s
  claimed : id ∈ s.claimed
  hand : asStored → InHand id accounted s c

/-- What a step leaves. If the conversation was to be cancelled when the last stretch began, then it
is cancelled in the store; and it accounts for its calls as it did. -/
structure Leaves (id : String) (asStored accounted : Prop) (since s : Situation) : Prop where
  tends : Tends id asStored since s
  halted : asStored → Halted id since →
    Store.Refused since.store s.store ∨ s.store.Cancelled id
  accounts : asStored → accounted → Accounted id s ∨ Drops id since s

/-- What a step leaves, and what a run goes on with. -/
structure Advances (id : String) (asStored accounted : Prop) (since : Situation) (o : StepResult)
    (s : Situation) : Prop extends Leaves id asStored accounted since s where
  claimed : id ∈ s.claimed
  goesOn : o.continues = true → Holding id asStored accounted since s o.conversation

namespace Holding

variable {d : Conversation} {s' : Situation}

theorem of_core (holding : Holding id asStored accounted since s c) (same : s'.core = s.core) :
    Holding id asStored accounted since s' c where
  named := holding.named
  solid := holding.solid
  tends := holding.tends.trans (.of_core same)
  claimed := by rw [Situation.claimed_of_core same]; exact holding.claimed
  hand := fun faithful => (holding.hand faithful).of_entry
    (congrArg (Backing.entry id) (Situation.backing_of_core same))

/-- A stretch begins where others have spared the conversation. -/
theorem resume (holding : Holding id asStored accounted since s c) (spares : Spares id s s') :
    Holding id asStored accounted s' s' c where
  named := holding.named
  solid := holding.solid
  tends := .refl id asStored s'
  claimed := spares.claimed.2 holding.claimed
  hand := fun faithful => (holding.hand faithful).of_entry spares.entry

/-- Nothing is left to do for a conversation whose request has been dealt with. -/
theorem leaves (holding : Holding id asStored accounted since s c)
    (settled : asStored → id ∈ s.cancelRequests → s.store.Cancelled id) :
    Leaves id asStored accounted since s where
  tends := holding.tends
  halted := fun faithful halted => by
    refine ((holding.tends.honours faithful).halted halted).imp_right fun stays => ?_
    exact stays.halted.elim (settled faithful) fun cancelled => cancelled
  accounts := fun faithful accounting => .inl ((holding.hand faithful).accounts accounting).2

/-- A conversation that is neither cancelled nor to be cancelled. -/
theorem not_halted (holding : Holding id asStored accounted since s c) (free : c.cancelled = false)
    (unparked : id ∉ s.cancelRequests) (faithful : asStored) : ¬ Halted id s := by
  rintro (parked | cancelled)
  · exact unparked parked
  · have same := (holding.hand faithful).cancelled_iff.1 cancelled
    simp [free] at same

/-- Taking the request, if there is one, and writing what has become of the conversation. -/
theorem taking_saving (holding : Holding id asStored accounted since s c) (named : d.id = id)
    (free : c.cancelled = false) (cancels : id ∈ s.cancelRequests → d.cancelled = true)
    (awaits : asStored → id ∈ s.cancelRequests →
      ∀ call ∈ d.pending.map (·.id), s.store.Awaits call id) :
    Tends id asStored since ((s.taking id).saving d) ∧
      (asStored → Halted id since → Store.Refused since.store ((s.taking id).saving d).store ∨
        ((s.taking id).saving d).store.Cancelled id) := by
  have honours (faithful : asStored) : Honours id s ((s.taking id).saving d) := by
    by_cases parked : id ∈ s.cancelRequests
    · exact .taking_saving named (cancels parked) fun _ => awaits faithful parked
    · have unhalted := holding.not_halted free parked faithful
      rw [Situation.taking_of_not_mem parked]
      exact .saving named (fun cancelled => absurd (.inr cancelled) unhalted)
        fun halted => absurd halted unhalted
  have tends : Tends id asStored s ((s.taking id).saving d) :=
    ((Tends.taking False.elim).trans (.saving named holding.solid False.elim)).of_honours honours
  refine ⟨holding.tends.trans tends, fun faithful halted => ?_⟩
  rcases (holding.tends.honours faithful).halted halted with refused | stays
  · exact .inl (refused.later tends.plan)
  have parked : id ∈ s.cancelRequests := by
    refine stays.halted.resolve_right fun cancelled => ?_
    have same := (holding.hand faithful).cancelled_iff.1 cancelled
    simp [free] at same
  have kept := Situation.cancelled_saving named (cancels parked) (s.taking id)
  exact kept.imp_left fun refused => refused.earlier holding.tends.plan

end Holding

/-! ## Ends of steps -/

theorem Leaves.of_core {s' : Situation} (leaves : Leaves id asStored accounted since s)
    (same : s'.core = s.core) : Leaves id asStored accounted since s' := by
  have entry : s'.store.backing.entry id = s.store.backing.entry id :=
    congrArg (Backing.entry id) (Situation.backing_of_core same)
  have plan : s'.store.writeRefusals <:+ s.store.writeRefusals := by
    rw [Situation.plan_of_core same]
  refine ⟨leaves.tends.trans (.of_core same), fun faithful halted => ?_,
    fun faithful accounting => ?_⟩
  · exact (leaves.halted faithful halted).imp (fun refused => refused.later plan) (.congr entry)
  · exact (leaves.accounts faithful accounting).imp (.of_entry entry) (.of_core same)

/-- A step that runs nothing ends a run. -/
theorem Leaves.rests {o : StepResult} {s' : Situation}
    (leaves : Leaves id asStored accounted since s) (claimed : id ∈ s.claimed)
    (same : s'.core = s.core) (stays : o.continues = false) :
    Advances id asStored accounted since o s' where
  toLeaves := leaves.of_core same
  claimed := by rwa [Situation.claimed_of_core same]
  goesOn := fun goes => by simp [stays] at goes

section Ending

variable {d : Conversation} (holding : Holding id asStored accounted since s c)
  (free : c.cancelled = false) (named : d.id = id)
  (cancels : id ∈ s.cancelRequests → d.cancelled = true)
include holding free named cancels

/-- A step that is given up leaves nothing pending. -/
theorem failStep_advances {s₁ : Situation} (taken : s₁.core = (s.taking id).core)
    (none : asStored → d.pending = []) (accounts : asStored → accounted → d.Accounts)
    (f : Failure) :
    (failStep d f s₁).Ends fun o s' => Advances id asStored accounted since o s' := by
  refine (failStep_ends d f s₁).mono (fun _ asked => asked) ?_
  rintro o s' ⟨now, rfl, same⟩
  have given : (d.giveUp f now).id = id := named
  obtain ⟨tends, halted⟩ := holding.taking_saving (d := d.giveUp f now) given free cancels
    fun _ _ call pending => absurd pending List.not_mem_nil
  have leaves : Leaves id asStored accounted since ((s.taking id).saving (d.giveUp f now)) := by
    refine ⟨tends, halted, fun faithful accounting => .inl ?_⟩
    have kept := Conversation.giveUp_accounts (accounts faithful accounting) (none faithful) f now
    exact .saving given kept ((holding.hand faithful).accounts accounting).2
  exact leaves.rests holding.claimed (same.trans (Situation.saving_of_core taken _)) rfl

/-- A step that has run its node leaves what became of the conversation; where that could not be
written, the calls that wait are given up. -/
theorem Concludes.advances {node : Node} {run : Visit} {o : StepResult} {s' : Situation}
    (concludes : Concludes (s.taking id) d node run o s')
    (none : asStored → id ∈ s.cancelRequests → d.pending = [])
    (pauses : asStored → d.Pauses) (accounts : asStored → accounted → d.Accounts) :
    Advances id asStored accounted since o s' := by
  obtain ⟨tends, halted⟩ := holding.taking_saving named free cancels fun faithful parked => by
    simp [none faithful parked]
  have before (faithful : asStored) (accounting : accounted) : Accounted id (s.taking id) :=
    ((holding.hand faithful).accounts accounting).2
  cases concludes with
  | saved written same =>
    have leaves : Leaves id asStored accounted since ((s.taking id).saving d) :=
      ⟨tends, halted, fun faithful accounting =>
        .inl (.saving named (accounts faithful accounting) (before faithful accounting))⟩
    have claimed : id ∈ s'.claimed := by
      rw [Situation.claimed_of_core same]
      exact holding.claimed
    refine ⟨leaves.of_core same, claimed, fun goes => ?_⟩
    have running : d.status = .running := by
      simp only [StepResult.continues, Bool.and_eq_true, decide_eq_true_eq] at goes
      exact goes.1.1.2
    have saved : ((s.taking id).saving d).store.Keeps d := Store.keeps_of_put written
    have hand (faithful : asStored) : InHand id accounted ((s.taking id).saving d) d :=
      .of_saved named saved (pauses faithful) running fun accounting =>
        ⟨accounts faithful accounting,
          .saving named (accounts faithful accounting) (before faithful accounting)⟩
    have holding' : Holding id asStored accounted since ((s.taking id).saving d) d :=
      ⟨named, holding.solid, tends, holding.claimed, hand⟩
    exact holding'.of_core same
  | @refused _ f refused now same =>
    obtain ⟨used, unchanged⟩ := Store.refused_of_put refused
    have given : (d.giveUp f now).id = id := named
    have entry : ((s.taking id).saving d).store.backing.entry id = s.store.backing.entry id :=
      congrArg (Backing.entry id) unchanged
    have honours (faithful : asStored) : Honours id ((s.taking id).saving d)
        (((s.taking id).saving d).saving (d.giveUp f now)) := by
      refine .saving given (fun cancelled => ?_) fun _ call pending =>
        absurd pending List.not_mem_nil
      have was := (holding.hand faithful).cancelled_iff.1 (cancelled.congr entry.symm)
      simp [free] at was
    have later : Tends id asStored ((s.taking id).saving d)
        (((s.taking id).saving d).saving (d.giveUp f now)) :=
      .saving given holding.solid honours
    have leaves : Leaves id asStored accounted since
        (((s.taking id).saving d).saving (d.giveUp f now)) := by
      refine ⟨tends.trans later, fun faithful wanted => ?_, fun faithful accounting => ?_⟩
      · exact (halted faithful wanted).imp (fun refused => refused.later later.plan)
          (honours faithful).cancelled
      · have kept : Accounted id ((s.taking id).saving d) :=
          (before faithful accounting).of_entry entry
        by_cases nothing : d.pending = []
        · exact .inl (.saving given
            (Conversation.giveUp_accounts (accounts faithful accounting) nothing f now) kept)
        rcases Store.put_cases (d.giveUp f now) ((s.taking id).saving d).store with
          ⟨-, keeps⟩ | ⟨-, -, same'⟩
        · exact .inr ⟨(used.earlier holding.tends.plan).later later.plan, d, f, now, named, nothing,
            keeps⟩
        · exact .inl (kept.of_entry (congrArg (Backing.entry id) same'))
    exact leaves.rests holding.claimed same rfl

end Ending

/-! ## Steps -/

/-- What a node makes of a conversation, while others may work on the rest and may ask for it to be
cancelled. -/
theorem visit_attends (holding : Holding id asStored accounted since s c) (ready : c.Ready)
    (node : Node) : Attends id asStored may (visit node c.leavePause) since s
      fun since found s' => Holding id asStored accounted since s' c ∧
        Visits node c.leavePause found ∧ Undisturbed id c.leavePause found.1 s'.cancelRequests := by
  have minds : Minds id (fun _ => True) (visit node c.leavePause) fun found parked =>
      Undisturbed id c.leavePause found.1 parked :=
    minds_visit ((Conversation.leavePause_id c).trans holding.named) node
  have visits : Keeps (.lenient s.settings False) False (visit node c.leavePause)
      (Visits node c.leavePause) := keeps_visit False.elim ⟨c, trivial, ready, rfl⟩
  have kept (s₁ s₂ : Situation) (orderly : (Regime.lenient s.settings False).Orderly s₁)
      (same : s₂.settings = s₁.settings) : (Regime.lenient s.settings False).Orderly s₂ :=
    Regime.orderly_lenient (same.trans orderly.settings) False.elim
  have both := (minds s s rfl trivial).and_meets
    (visits s (Regime.orderly_lenient rfl False.elim)) kept
  refine both.rebase (fun early late => Holding id asStored accounted early late c)
    holding ?_ ?_ ?_ ?_
  · exact fun early late s' holding same => holding.of_core same
  · intro early s' q holding minded
    refine ⟨holding.tends, holding.claimed, holding.solid,
      fun faithful => (holding.hand faithful).stored, fun faithful acts => .inl ?_⟩
    exact holding.not_halted ready.not_cancelled (minded acts) faithful
  · exact fun early s' s'' holding spares => ⟨spares.settings, holding.resume spares⟩
  · exact fun early late found s' holding ends =>
      ⟨holding.of_core ends.1.1, ends.2.2, ends.1.2⟩

/-- How a step goes on once its node has been run. -/
theorem settle_advances (holding : Holding id asStored accounted since s c) (ready : c.Ready)
    {node : Node} {c' : Conversation} {result : Except Failure Visit}
    (visits : Visits node c.leavePause (c', result))
    (undisturbed : Undisturbed id c.leavePause c' s.cancelRequests) (before : Option Json) :
    ((do
      let c := { c' with current := some node.id, steps := c'.steps + 1 }
      let c := if ← takeCancel c.id then { c with cancelled := true } else c
      match result with
      | .ok run => completeStep node c before run
      | .error f =>
        let c ← match before with
          | none => pure c
          | some before =>
            let info := FailureInfo.ofFailure f
            pure (c.record node .error .null (.object [("error", info.toJson)]) before (← now))
        failStep c f : Engine StepResult) s).Ends
      fun o s' => Advances id asStored accounted since o s' := by
  have own : c'.id = id :=
    undisturbed.1.trans ((Conversation.leavePause_id c).trans holding.named)
  subst own
  have nothing (faithful : asStored) : c.leavePause.pending = [] :=
    ready.leavePause_pending (holding.hand faithful).pauses
  have accounting (faithful : asStored) (accounts : accounted) : c.leavePause.Accounts :=
    ((holding.hand faithful).accounts accounts).1.congr (Conversation.leavePause_messages c)
      (Conversation.leavePause_pending c)
  have quiet (faithful : asStored) (parked : c'.id ∈ s.cancelRequests) : c'.pending = [] :=
    (undisturbed.2 parked).trans (nothing faithful)
  apply Activity.meets_bind (takeCancel_ends c'.id s)
  intro cancel s₁ taken
  obtain ⟨rfl, requested⟩ := taken
  have cancels (parked : c'.id ∈ s.cancelRequests) :
      (c'.arrive node cancel).cancelled = true := by
    simp [requested.2 parked]
  cases result with
  | ok run =>
    refine (completeStep_ends node (c'.arrive node cancel) before run _).mono
      (fun _ asked => asked) ?_
    rintro o s' ⟨noted, now, concludes⟩
    have pauses (faithful : asStored) :
        ((c'.arrive node cancel).conclude node run before noted now).Pauses :=
      Conversation.conclude_pauses (Conversation.arrive_pauses
        (visits.pauses (nothing faithful) ready.leavePause_status) node cancel) node run before
        noted now
    have accounts (faithful : asStored) (accounts : accounted) :
        ((c'.arrive node cancel).conclude node run before noted now).Accounts :=
      (visits.accounts (accounting faithful accounts) (nothing faithful)).congr
        (by simp) (by simp)
    exact concludes.advances holding ready.not_cancelled (by simp) (by simpa using cancels)
      (by simpa using quiet) pauses accounts
  | error f =>
    have engaged : Engaged c.leavePause c' [] := visits
    have none (faithful : asStored) : c'.pending = [] := engaged.pending.trans (nothing faithful)
    have accounts (faithful : asStored) (accounts : accounted) : c'.Accounts :=
      engaged.accounts (accounting faithful accounts) (nothing faithful) rfl
        (by rw [none faithful, List.map_nil])
    have fails {s₁ : Situation} (taken : s₁.core = (s.taking c'.id).core) (noted : Instant) :
        (failStep ((c'.arrive node cancel).noteFailure node before f noted) f s₁).Ends
          fun o s' => Advances c'.id asStored accounted since o s' :=
      failStep_advances holding ready.not_cancelled (by simp) (by simpa using cancels) taken
        (by simpa using none) (fun faithful given => (accounts faithful given).congr
          (by simp) (by simp)) f
    cases before with
    | none => exact fails rfl s.clock.tick.1.instant
    | some before =>
      dsimp only
      apply Activity.meets_bind (now_ends _)
      intro noted s₁ same
      exact fails same noted

theorem stepNode_attends (holding : Holding id asStored accounted since s c) (ready : c.Ready)
    (unparked : id ∉ s.cancelRequests) (node : Node) :
    Attends id asStored may (stepNode node c) since s (Advances id asStored accounted) := by
  have started : Tends id asStored s
      { s with published := s.published ++ [.stepStarted id node.id] } :=
    .of_start node.id (holding.not_halted ready.not_cancelled unparked)
  have begun : Holding id asStored accounted since
      { s with published := s.published ++ [.stepStarted id node.id] } c :=
    ⟨holding.named, holding.solid, holding.tends.trans started, holding.claimed,
      fun faithful => (holding.hand faithful).of_entry (by rfl)⟩
  have publishes : (publish (.stepStarted c.leavePause.id node.id) s).Ends fun _ s' =>
      s' = { s with published := s.published ++ [.stepStarted id node.id] } := by
    rw [Conversation.leavePause_id, holding.named]
    exact rfl
  apply Activity.abides_bind_ends publishes
  rintro _ _ rfl
  apply Activity.abides_bind (visit_attends begun ready node)
  intro since' found s' holds
  obtain ⟨holding', visits, undisturbed⟩ := holds
  obtain ⟨c', result⟩ := found
  exact (settle_advances holding' ready visits undisturbed _).abides fun _ _ advances => advances

/-- A request that is picked up is written down, and the conversation rests. -/
theorem Holding.picked (holding : Holding id asStored accounted since s c)
    (free : c.cancelled = false) (now : Instant) :
    Leaves id asStored accounted since
      ((s.taking id).saving ({ c with cancelled := true }.touch now)) := by
  have named : ({ c with cancelled := true }.touch now).id = id := holding.named
  obtain ⟨tends, halted⟩ := holding.taking_saving named free (fun _ => rfl)
    fun faithful _ => (holding.hand faithful).awaits
  refine ⟨tends, halted, fun faithful accounting => .inl ?_⟩
  obtain ⟨accounts, before⟩ := (holding.hand faithful).accounts accounting
  exact .saving named (accounts.congr rfl rfl) before

theorem advance_attends (holding : Holding id asStored accounted since s c) :
    Attends id asStored may (advance c) since s (Advances id asStored accounted) := by
  apply Activity.abides_bind_ends (pickUpCancel_ends c s)
  intro c₁ s₁ picked
  have named := holding.named
  subst named
  rcases picked with ⟨rfl, same, kept⟩ | ⟨now, rfl, free, same⟩
  · have unparked : c₁.id ∉ s₁.cancelRequests := by
      rw [Situation.requests_of_core same]
      simp [Situation.taking]
    have holding' : Holding c₁.id asStored accounted since s₁ c₁ := by
      have taking : Tends c₁.id asStored s (s.taking c₁.id) := .taking fun faithful =>
        .taking fun parked => (holding.hand faithful).cancelled_iff.2 (kept parked)
      have taken : Holding c₁.id asStored accounted since (s.taking c₁.id) c₁ :=
        ⟨rfl, holding.solid, holding.tends.trans taking, holding.claimed,
          fun faithful => (holding.hand faithful).of_entry (by rfl)⟩
      exact taken.of_core same
    have rests {o : StepResult} (stays : o.continues = false) :
        Advances c₁.id asStored accounted since o s₁ :=
      (holding'.leaves fun _ parked => absurd parked unparked).rests holding'.claimed rfl stays
    split
    · next awaiting => exact rests (by simp [StepResult.continues, awaiting])
    next unpaused =>
    split
    · next completed => exact rests (by simp [StepResult.continues, completed])
    next unfinished =>
    split
    · next cancelled => exact rests (by simp [StepResult.continues, cancelled])
    next going =>
    have ready : c₁.Ready := ⟨unpaused, unfinished, by simpa using going⟩
    have finds : (graph c₁.flow s₁).Ends fun _ s' => s' = s₁ := graph_ends c₁.flow s₁
    apply Activity.abides_bind_ends finds
    rintro found _ rfl
    split
    · next f =>
      have lost := failStep_advances holding' ready.not_cancelled rfl
        (fun parked => absurd parked unparked)
        (by rw [Situation.taking_of_not_mem unparked])
        (fun faithful => (holding'.hand faithful).pauses.pending_eq_nil unpaused)
        (fun faithful accounting => ((holding'.hand faithful).accounts accounting).1) f
      exact lost.abides fun _ _ advances => advances
    · exact stepNode_attends holding' ready unparked _
  · have rests {o : StepResult} (stays : o.continues = false) :
        Advances c.id asStored accounted since o s₁ :=
      (holding.picked free now).rests holding.claimed same stays
    split
    · next awaiting => exact rests (by simp [StepResult.continues, awaiting])
    split
    · exact rests (by simp [StepResult.continues, Conversation.touch])
    split
    · exact rests (by simp [StepResult.continues, Conversation.touch])
    · next going => exact absurd rfl going

/-- A run goes on where the step before it left off. -/
theorem keepGoing_attends (budget : Nat) {o : StepResult}
    (advances : Advances id asStored accounted since o s) :
    Attends id asStored may (keepGoing budget o) since s (Advances id asStored accounted) := by
  induction budget generalizing o since s with
  | zero => exact advances
  | succ budget ih =>
    unfold keepGoing
    split
    · next goes =>
      apply Activity.abides_bind (advance_attends (advances.goesOn goes))
      intro since' o' s' advances'
      exact ih advances'
    · exact advances

/-! ## Claims -/

theorem core_get (id : String) (s : Situation) :
    { s with store := (s.store.get id).2 }.core = s.core := by
  simp only [Situation.core, Store.get]
  split <;> rfl

theorem read_ends (id : String) (s : Situation) : (read id s).Ends fun found s' =>
    found = (s.store.get id).1 ∧ s'.core = s.core :=
  ⟨rfl, core_get id s⟩

/-- A conversation cannot be read, or is not there. -/
def Unread (id : String) (s : Situation) : Prop := ∀ c, (s.store.get id).1 ≠ .ok (some c)

theorem load_ends_core (id : String) (s : Situation) : (load id s).Ends fun loaded s' =>
    s'.core = s.core ∧ (∀ c, loaded = .ok c → s.store.backing.get id = .ok (some c)) ∧
      ∀ f, loaded = .error f → Unread id s := by
  apply Activity.meets_bind (read_ends id s)
  intro found s' holds
  obtain ⟨given, same⟩ := holds
  rw [Unread, ← given]
  split
  · exact ⟨same, fun _ loaded => (by cases loaded), fun _ _ _ there => (by cases there)⟩
  · exact ⟨same, fun _ loaded => (by cases loaded), fun _ _ _ there => (by cases there)⟩
  · next c =>
    refine ⟨same, fun c' loaded => ?_, fun _ failed => (by cases failed)⟩
    cases loaded
    exact Store.get_eq_backing given.symm

theorem load_found {regular : Conversation → Prop} {id : String} {s : Situation}
    {c : Conversation} (dependable : s.store.Dependable regular)
    (found : s.store.backing.get id = .ok (some c)) : load id s = .done s (.ok c) := by
  have looks : read id s = .done s (.ok (some c)) := by
    simp only [read, dependable.get id, found]
  unfold load
  rw [Activity.bind_run, looks]
  rfl

theorem load_unfound {regular : Conversation → Prop} {id : String} {s : Situation}
    (dependable : s.store.Dependable regular)
    (missing : ∀ c, s.store.backing.get id ≠ .ok (some c)) :
    ∃ f, load id s = .done s (.error f) := by
  have looks : read id s = .done s (s.store.backing.get id) := by
    simp only [read, dependable.get id]
  unfold load
  rw [Activity.bind_run, looks]
  rcases kept : s.store.backing.get id with f | (_ | c)
  · exact ⟨f, rfl⟩
  · exact ⟨_, rfl⟩
  · exact absurd kept (missing c)

theorem write_done {regular : Conversation → Prop} {s : Situation}
    (dependable : s.store.Dependable regular) (c : Conversation) :
    write c s = .done { s with store := { s.store with backing := s.store.backing.put c } }
      (.ok ()) := by
  simp [write, Store.put, Store.takeRefusal, dependable.writes]

theorem mem_claimed_cons (id : String) (s : Situation) {other : String} (different : other ≠ id) :
    other ∈ id :: s.claimed ↔ other ∈ s.claimed := by
  simp [different]

theorem mem_claimed_filter (id : String) (s : Situation) {other : String}
    (different : other ≠ id) : other ∈ s.claimed.filter (· != id) ↔ other ∈ s.claimed := by
  simp [different]

theorem tryClaim_free (free : id ∉ s.claimed) :
    tryClaim id s = .done { s with claimed := id :: s.claimed } true :=
  if_neg (by simpa using free)

theorem tryClaim_busy (busy : id ∈ s.claimed) : tryClaim id s = .done s false :=
  if_pos (by simpa using busy)

theorem tryClaim_free_ends (free : id ∉ s.claimed) : (tryClaim id s).Ends fun isFree s' =>
    isFree = true ∧ s' = { s with claimed := id :: s.claimed } := by
  rw [tryClaim_free free]
  exact ⟨rfl, rfl⟩

/-- A conversation that is free is claimed while a body works on it. -/
theorem claiming_attends {body : Engine (Except Failure α)}
    {post : Situation → Except Failure α → Situation → Prop} (free : id ∉ s.claimed)
    (works : Attends id asStored may body since { s with claimed := id :: s.claimed }
      fun since reply s' => post since reply { s' with claimed := s'.claimed.filter (· != id) }) :
    Attends id asStored may (claiming id body) since s post := by
  apply Activity.abides_bind_ends (tryClaim_free_ends free)
  rintro isFree s₁ ⟨rfl, rfl⟩
  rw [if_pos rfl]
  apply Activity.abides_bind works
  intro since reply s' holds
  exact holds

/-- A conversation that is claimed is refused, and nothing changes. -/
theorem claiming_busy (body : Engine (Except Failure α)) (busy : id ∈ s.claimed) :
    claiming id body s = .done s (.error (.busy id)) := by
  unfold claiming
  rw [Activity.bind_run, tryClaim_busy busy]
  rfl

end Engine

end DialogueEngine
