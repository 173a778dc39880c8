import DialogueEngine.Proofs.Conversation.Recall
import DialogueEngine.Proofs.Engine.Approval
import DialogueEngine.Proofs.Engine.Operation

/-!
Where each call of a provider's tool has to be approved, the tools that are run are those of the
calls that were approved, in this order and each of them once. An approval asks for its tool first
and asks nothing after it; nothing else that can be begun asks for one at all.
-/

namespace DialogueEngine

open Engine (Given Rests)

/-- What may be begun where calls have to be approved: a flow is registered only if each of its
processes requires approval, unless the settings do; a conversation at hand was given back. -/
def Undertaking.Supervised (settings : Settings) (history : List Happening) : Undertaking → Prop
  | .operation _ => True
  | .registration flow => settings.approval.requireApproval = true ∨
      ∀ g, flow.toGraph = .ok g → g.Gated
  | .stepWith c => ∃ u outcome s, .ended u (.ok outcome) s ∈ history ∧
      outcome.conversation? = some c

/-- Calls that wait can be run, and are run on approval only. -/
def Regime.supervision (settings : Settings) : Regime where
  keeps := Conversation.Guarded
  sure := False
  gated := True
  settings
  durable := Conversation.durable_guarded
  fresh _ _ _ _ := .of_none (.of_free rfl (by simp [Conversation.fresh])) rfl
  greeted _ _ _ _ _ _ _ :=
    .of_none (.of_free rfl (by simp [Conversation.fresh, Conversation.push])) rfl
  moves kept moves := moves.guarded kept

namespace Happening

/-- The call that is approved by what is begun. -/
def approvedCall? : Happening → Option ToolCall
  | .began (.operation (.resolve id call .approve)) s => Engine.approvedCall s id call
  | _ => none

/-- The tool run that is asked for. -/
def run? : Happening → Option Question
  | .asked _ q _ => if q.isRun then some q else none
  | _ => none

@[simp] theorem run?_began (u : Undertaking) (s : Situation) : (began u s).run? = none := rfl

@[simp] theorem run?_answered (u : Undertaking) (q : Question) (reply : Answer q)
    (s : Situation) : (answered u q reply s).run? = none := rfl

@[simp] theorem approvedCall?_answered (u : Undertaking) (q : Question) (reply : Answer q)
    (s : Situation) : (answered u q reply s).approvedCall? = none := rfl

@[simp] theorem approvedCall?_happening (u : Undertaking) (x : Work) :
    (x.happening u).approvedCall? = none := by
  cases x <;> rfl

end Happening

section Supervised

variable {settings : Settings} {s : Situation} {u : Undertaking}

/-- What is admitted fits the regime. -/
theorem Undertaking.Supervised.fits {history : List Happening}
    (past : ∀ h ∈ history, h.Keeps (.supervision settings))
    (supervised : u.Supervised settings history) : u.Fits (.supervision settings) := by
  cases u with
  | operation op => exact trivial
  | registration flow => exact fun _ => supervised
  | stepWith c =>
    obtain ⟨u, outcome, s, ended, given⟩ := supervised
    have kept := ((past _ ended).2 outcome rfl).of_conversation? given
    exact ⟨kept, fun f => ⟨kept.pauses, kept.approvable⟩⟩

/-- Work that asks for no tool to be run. -/
abbrev Work.RunsNothing (settings : Settings) (u : Undertaking) (x : Work) : Prop :=
  x.Obeys (Regime.supervision settings).Orderly (fun _ q => q.isRun = false) (fun _ _ => True) u

/-- An undertaking that asks for no tool to be run any more. -/
abbrev Waiting.RunsNothing (settings : Settings) (w : Waiting) : Prop :=
  w.Obeys (Regime.supervision settings).Orderly (fun _ q => q.isRun = false) fun _ _ => True

theorem Undertaking.Fits.runsNothing (fits : u.Fits (.supervision settings))
    (orderly : (Regime.supervision settings).Orderly s) (other : ¬ u.Approves) :
    Work.RunsNothing settings u (u.perform s) := by
  refine (fits.obeys orderly).mono (fun q posed => ?_) fun _ _ holds => ⟨holds.1, trivial⟩
  cases q with
  | runTool provider tool arguments => exact absurd (posed trivial) other
  | _ => rfl

theorem Work.RunsNothing.of_silent {asks : Question → Prop} {ends : Undertaking.Reply → Prop}
    {x : Work} (silent : x.Ends fun _ _ => True)
    (obeys : x.Meets (Regime.supervision settings).Orderly asks fun reply s =>
      (Regime.supervision settings).Orderly s ∧ ends reply) : Work.RunsNothing settings u x := by
  cases x with
  | done s reply => exact ⟨obeys.1, trivial⟩
  | ask s q resume => exact silent.1.elim

theorem Work.RunsNothing.run?_happening {x : Work} (nothing : x.RunsNothing settings u) :
    (x.happening u).run? = none := by
  cases x with
  | done s reply => rfl
  | ask s q resume => exact if_neg (by rw [nothing.2.1]; exact Bool.false_ne_true)

/-- What is begun either approves no call and runs no tool, or asks for the tool of the call that it
approves and runs nothing after it. -/
theorem Undertaking.Fits.runs (fits : u.Fits (.supervision settings))
    (orderly : (Regime.supervision settings).Orderly s) :
    ((Happening.began u s).approvedCall? = none ∧
      Work.RunsNothing settings u (u.perform s)) ∨
    ∃ call q s' resume, (Happening.began u s).approvedCall? = some call ∧
      call.question = .ok q ∧ u.perform s = .ask s' q resume ∧
      Waiting.RunsNothing settings ⟨u, q, resume⟩ := by
  have obeys := fits.obeys orderly
  by_cases approves : u.Approves
  · obtain ⟨id, call, rfl⟩ := approves
    cases approved : Engine.approvedCall s id call with
    | none =>
      have ends : ((Undertaking.operation (.resolve id call .approve)).perform s).Ends
          fun _ _ => True :=
        Activity.meets_bind (Engine.resolve_missing approved) fun _ _ _ => trivial
      exact .inl ⟨approved, .of_silent ends obeys⟩
    | some taken =>
      obtain ⟨q, question, asks⟩ := Engine.resolve_found orderly.holds approved
      have once : ((Undertaking.operation (.resolve id call .approve)).perform s).AsksOnce q :=
        Activity.asksOnce_bind_ends asks fun _ _ => trivial
      obtain ⟨s', resume, same, silent⟩ := once.resume
      have performed : (Undertaking.operation (.resolve id call .approve)).perform s =
          .ask s' q resume := same
      rw [performed] at obeys
      refine .inr ⟨taken, q, s', resume, approved, question, performed, ?_⟩
      intro answer s'' holds
      exact Work.RunsNothing.of_silent (silent answer s'') (obeys.2.2 answer s'' holds)
  · refine .inl ⟨?_, fits.runsNothing orderly approves⟩
    unfold Happening.approvedCall?
    split
    · next id call s' same =>
      cases same
      exact absurd ⟨id, call, rfl⟩ approves
    · rfl

/-- Everything that is begun under supervision keeps to its regime. -/
theorem Unfolds.supervised {store : Store} {clock : Clock} {history : List Happening}
    {scene : Scene} (new : store.IsNew)
    (unfolds : Unfolds (fun history _ u => u.Supervised settings history)
      (.fresh settings store clock) history scene) :
    (∀ h ∈ history, h.Keeps (.supervision settings)) ∧
      (Regime.supervision settings).Orderly scene.now := by
  have keeps := unfolds.keeps (Regime.supervision settings)
    (Regime.orderly_fresh _ new False.elim clock) fun _ _ _ past supervised => supervised.fits past
  exact ⟨keeps.1, keeps.2.now⟩

/-- The tools that are run so far are those of the calls approved so far, and no more of them are
run without a further approval. -/
theorem Unfolds.runs {store : Store} {clock : Clock} {history : List Happening} {scene : Scene}
    (new : store.IsNew)
    (unfolds : Unfolds (fun history _ u => u.Supervised settings history)
      (.fresh settings store clock) history scene) :
    (history.filterMap Happening.approvedCall?).map ToolCall.question =
        (history.filterMap Happening.run?).map .ok ∧
      ∀ w ∈ scene.waiting, w.RunsNothing settings := by
  induction unfolds with
  | start => exact ⟨rfl, fun w none => absurd none List.not_mem_nil⟩
  | @begin history scene u before supervised ih =>
    obtain ⟨same, quiet⟩ := ih
    obtain ⟨past, present⟩ := before.supervised new
    rcases (supervised.fits past).runs present with
      ⟨none, nothing⟩ | ⟨call, q, s', resume, approved, question, performed, later⟩
    · have silent := nothing.run?_happening
      exact ⟨by simp [List.filterMap_cons, none, silent, same], nothing.waiting quiet⟩
    · have asked : (Work.happening u (u.perform scene.now)).run? = some q := by
        rw [performed]
        exact if_pos (ToolCall.isRun_of_question question)
      refine ⟨by simp [List.filterMap_cons, approved, asked, same, question], ?_⟩
      intro w member
      rw [performed] at member
      rcases List.mem_cons.1 member with rfl | old
      · exact later
      · exact quiet w old
  | @answer history now front back w reply before ih =>
    obtain ⟨same, quiet⟩ := ih
    have present := (before.supervised new).2
    have nothing : Work.RunsNothing settings w.undertaking (w.resume reply now) :=
      quiet w List.mem_append_cons_self reply now present
    have silent := nothing.run?_happening
    have others (other : Waiting) (member : other ∈ front ++ back) : other.RunsNothing settings :=
      quiet other (Waiting.mem_of_mem_others member)
    exact ⟨by simp [List.filterMap_cons, silent, same], nothing.waiting others⟩

end Supervised

/-- A conversation that waits for a decision: steps run nothing and messages are refused. -/
structure OnHold (s : Situation) (id : String) (c : Conversation) : Prop where
  step : (Engine.step id s).Ends fun reply s' =>
    s'.published = s.published ∧ Given (Rests c) reply
  run (most : Nat) : (Engine.run id most s).Ends fun reply s' =>
    s'.published = s.published ∧ Given (Rests c) reply
  post (text : String) : (Engine.post id text s).Ends fun reply s' =>
    (∃ f, reply = .error f) ∧ s'.store.backing = s.store.backing

/-- Where calls have to be approved, in every history the tools that providers are asked to run are
those of the calls that are approved while they are pending, one for each and in their order; only
approvals ask for them; and a stored conversation with a pending call is on hold. -/
theorem Unfolds.runs_are_approved {settings : Settings} {store : Store} {clock : Clock}
    {history : List Happening} {scene : Scene} (new : store.IsNew)
    (unfolds : Unfolds (fun history _ u => u.Supervised settings history)
      (.fresh settings store clock) history scene) :
    (history.filterMap Happening.approvedCall?).map ToolCall.question =
        (history.filterMap Happening.run?).map .ok ∧
      (∀ u q s, .asked u q s ∈ history → q.isRun = true → u.Approves) ∧
      ∀ id c, scene.now.store.backing.get id = .ok (some c) → c.pending ≠ [] →
        OnHold scene.now id c := by
  obtain ⟨past, present⟩ := unfolds.supervised new
  refine ⟨(unfolds.runs new).1, ?_, ?_⟩
  · intro u q s asked runs
    have posed := (past _ asked).2
    cases q with
    | runTool provider tool arguments => exact posed trivial
    | _ => cases runs
  · intro id c stored pending
    have awaiting := (present.holds id c stored).pauses.1 pending
    exact ⟨Engine.step_awaiting stored awaiting, Engine.run_awaiting stored awaiting,
      Engine.post_awaiting stored awaiting⟩

/-- Settings under which each call has to be approved. -/
def cautious : Settings := { Settings.standard with approval := ⟨true, "Rejected."⟩ }

theorem approved_call_run : ∃ history scene,
    Unfolds (fun history _ u => u.Supervised cautious history) (.fresh cautious .memory default)
        history scene ∧
      (history.filterMap Happening.approvedCall?).map (·.name) = ["_-_-_search_-_-_find"] ∧
      (scene.now.store.backing.get "c").toOption.join.map (·.pending.length) = some 2 ∧
      (history.filterMap Happening.approvedCall?).map ToolCall.question =
        (history.filterMap Happening.run?).map .ok ∧
      (∀ u q s, .asked u q s ∈ history → q.isRun = true → u.Approves) ∧
      ∀ id c, scene.now.store.backing.get id = .ok (some c) → c.pending ≠ [] →
        OnHold scene.now id c := by
  have nothing : Unfolds (fun history _ u => u.Supervised cautious history)
      (.fresh cautious .memory default) [] ⟨.fresh cautious .memory default, []⟩ := .start
  have registered := nothing.begin (.registration assistantFlow) (.inl rfl)
  have started := registered.begin
    (.operation (.start (some "c") "assistant" (some "Hello"))) trivial
  have ran := started.begin (.operation (.run "c" 5)) trivial
  have paused := ran.resumed (modelAnswering ""
    [⟨"x", "_-_-_search_-_-_find", .null⟩, ⟨"y", "_-_-_search_-_-_drop", .null⟩])
  have stepped := paused.begin (.operation (.step "c")) trivial
  have approved := stepped.begin (.operation (.resolve "c" "x" .approve)) trivial
  refine ⟨_, _, approved, ?_, ?_, approved.runs_are_approved (.inl rfl)⟩
  · decide +kernel
  · decide +kernel

end DialogueEngine
