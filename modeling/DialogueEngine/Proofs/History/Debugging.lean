import DialogueEngine.Proofs.Engine.Mirroring
import DialogueEngine.Proofs.Engine.Recording
import DialogueEngine.Proofs.History.Coherence
import DialogueEngine.Proofs.History.Stepping
import Mathlib.Data.List.Forall2

/-!
Histories of a conversation that is watched in two ways. Whatever is begun, asked and answered in
one of them, the same is begun, asked and answered in the other; the events, the results and what is
stored are the same but for the watching. What watching adds is one record for each node that is
run.
-/

namespace DialogueEngine

open Engine (Recording RunsNode SameReply)

/-- A conversation that operations come to from a store in which nothing has been put. -/
def Conversation.Reachable (c : Conversation) : Prop :=
  ∃ settings store clock history scene id, Store.IsNew store ∧
    Unfolds (fun _ _ u => u.UsesStore) (.fresh settings store clock) history scene ∧
    scene.now.store.backing.get id = .ok (some c)

/-- A conversation that has not failed keeps no failure. -/
theorem Conversation.Reachable.unfailed {c : Conversation} (reachable : c.Reachable)
    (sound : c.status ≠ .error) : c.lastError = none := by
  obtain ⟨settings, store, clock, history, scene, id, new, unfolds, found⟩ := reachable
  exact ((unfolds.conversations_coherent new).1 id c found).lastError_eq_none sound

/-- The undertakings that go on with a conversation. -/
def Undertaking.Drives (id : String) : Undertaking → Prop
  | .operation op => op.Drives id
  | _ => False

/-! ## Alike histories -/

/-- Two entries that are the same but for the watching. -/
inductive Happening.Alike (w : Watching) : Happening → Happening → Prop
  | began (u : Undertaking) {s s' : Situation} (shares : w.Shares s s') :
      Alike w (.began u s) (.began u s')
  | asked (u : Undertaking) {q q' : Question} {s s' : Situation}
      (posed : q.essence = q'.essence) (shares : w.Shares s s') :
      Alike w (.asked u q s) (.asked u q' s')
  | answered (u : Undertaking) {q q' : Question} {answer : Answer q} {answer' : Answer q'}
      {s s' : Situation} (posed : q.essence = q'.essence) (same : HEq answer answer')
      (shares : w.Shares s s') : Alike w (.answered u q answer s) (.answered u q' answer' s')
  | ended (u : Undertaking) {reply reply' : Undertaking.Reply} {s s' : Situation}
      (agree : SameReply reply reply') (shares : w.Shares s s') :
      Alike w (.ended u reply s) (.ended u reply' s')

/-- Two pieces of work that cannot be told apart. -/
abbrev Work.Alike (w : Watching) (x y : Work) : Prop :=
  Interaction.Alike w.Shares (fun q q' => q.essence = q'.essence) SameReply x y

/-- Two undertakings that wait for one answer. -/
structure Waiting.Alike (w : Watching) (x y : Waiting) : Prop where
  undertaking : x.undertaking = y.undertaking
  posed : x.question.essence = y.question.essence
  goesOn : ∀ answer answer', HEq answer answer' → ∀ s s', w.Shares s s' →
    Work.Alike w (x.resume answer s) (y.resume answer' s')

/-- Two scenes that are the same but for the watching. -/
structure Scene.Alike (w : Watching) (scene scene' : Scene) : Prop where
  now : w.Shares scene.now scene'.now
  waiting : List.Forall₂ (Waiting.Alike w) scene.waiting scene'.waiting

theorem Answer.essence (q : Question) : Answer q.essence = Answer q := by
  cases q <;> rfl

/-- An answer to a question answers every question of its essence. -/
theorem Answer.exists_heq {q q' : Question} (posed : q.essence = q'.essence) (answer : Answer q) :
    ∃ answer' : Answer q', HEq answer answer' := by
  have same : Answer q = Answer q' := by rw [← Answer.essence q, posed, Answer.essence]
  exact ⟨cast same answer, (cast_heq same answer).symm⟩

theorem Work.Alike.stops {w : Watching} {x y : Work} (alike : Work.Alike w x y)
    (u : Undertaking) : w.Shares x.situation y.situation ∧
      Happening.Alike w (x.happening u) (y.happening u) ∧
      List.Forall₂ (Waiting.Alike w) (x.waiting u) (y.waiting u) := by
  cases alike with
  | done shares agree => exact ⟨shares, .ended u agree shares, .nil⟩
  | ask shares posed goesOn =>
    exact ⟨shares, .asked u posed shares, .cons ⟨rfl, posed, goesOn⟩ .nil⟩

/-- Work that is begun or goes on takes alike histories to alike histories. -/
theorem Work.Alike.step {w : Watching} {x y : Work} (alike : Work.Alike w x y) (u : Undertaking)
    {history history' : List Happening} {opening opening' : Happening}
    {others others' : List Waiting} (past : List.Forall₂ (Happening.Alike w) history history')
    (opens : Happening.Alike w opening opening')
    (waiting : List.Forall₂ (Waiting.Alike w) others others') :
    List.Forall₂ (Happening.Alike w) (history ++ [opening, x.happening u])
        (history' ++ [opening', y.happening u]) ∧
      Scene.Alike w ⟨x.situation, x.waiting u ++ others⟩ ⟨y.situation, y.waiting u ++ others'⟩ := by
  obtain ⟨shares, stops, waits⟩ := alike.stops u
  exact ⟨List.rel_append past (.cons opens (.cons stops .nil)), shares,
    List.rel_append waits waiting⟩

/-- One of those that wait has a counterpart at its place. -/
theorem forall₂_middle {α β : Type} {R : α → β → Prop} {front back : List α} {a : α} {l : List β}
    (related : List.Forall₂ R (front ++ a :: back) l) :
    ∃ front' b back', l = front' ++ b :: back' ∧ R a b ∧
      List.Forall₂ R (front ++ back) (front' ++ back') := by
  induction front generalizing l with
  | nil =>
    obtain ⟨b, back', first, rest, rfl⟩ := List.forall₂_cons_left_iff.1 related
    exact ⟨[], b, back', rfl, first, rest⟩
  | cons other front ih =>
    obtain ⟨other', later, first, rest, rfl⟩ := List.forall₂_cons_left_iff.1 related
    obtain ⟨front', b, back', rfl, same, others⟩ := ih rest
    exact ⟨other' :: front', b, back', rfl, same, .cons first others⟩

/-- Whatever unfolds from one of two situations unfolds from the other in the same way. -/
theorem Unfolds.alongside {w : Watching} {s s' : Situation} (shares : w.Shares s s')
    {history : List Happening} {scene : Scene}
    (unfolds : Unfolds (fun _ _ u => u.Drives w.id) s history scene) :
    ∃ history' scene', Unfolds (fun _ _ u => u.Drives w.id) s' history' scene' ∧
      List.Forall₂ (Happening.Alike w) history history' ∧ Scene.Alike w scene scene' := by
  induction unfolds with
  | start => exact ⟨[], ⟨s', []⟩, .start, .nil, shares, .nil⟩
  | @begin history scene u before drives ih =>
    obtain ⟨history', scene', before', past, present⟩ := ih
    obtain ⟨op, rfl, named⟩ : ∃ op, u = .operation op ∧ op.Drives w.id := by
      cases u with
      | operation op => exact ⟨op, rfl, drives⟩
      | registration => exact drives.elim
      | stepWith => exact drives.elim
    have works : Work.Alike w (op.perform scene.now) (op.perform scene'.now) :=
      Engine.likewise_perform named _ _ present.now
    exact ⟨_, _, before'.begin (.operation op) named,
      works.step _ past (.began _ present.now) present.waiting⟩
  | @answer history now front back x reply before ih =>
    obtain ⟨history', ⟨now', waiting'⟩, before', past, present⟩ := ih
    obtain ⟨front', y, back', rfl, alike, others⟩ := forall₂_middle present.waiting
    obtain ⟨reply', same⟩ := Answer.exists_heq alike.posed reply
    have works := alike.goesOn reply reply' same now now' present.now
    have answers := before'.answer y reply'
    rw [← alike.undertaking] at answers
    exact ⟨_, _, answers, works.step _ past (.answered _ alike.posed same present.now) others⟩

/-! ## Watching -/

/-- What a step of a stored conversation records. -/
theorem Engine.step_records {regular : Conversation → Prop} {id : String} {c : Conversation}
    {s : Situation} (dependable : s.store.Dependable regular) (free : id ∉ s.claimed)
    (found : s.store.backing.get id = .ok (some c)) :
    (step id s).Meets (fun t => t.settings = s.settings) (fun _ => True) fun reply _ =>
      ∃ o, reply = .ok o ∧ Recording (RunsNode s c) c o := by
  have loaded : load id (seizing id s) = .done (seizing id s) (.ok c) := load_found dependable found
  have runs : RunsNode (seizing id s) c = RunsNode s c :=
    propext ⟨fun runs => ⟨runs.ready, runs.calm, runs.flow⟩,
      fun runs => ⟨runs.ready, runs.calm, runs.flow⟩⟩
  let advances : Conversation → Engine (Except Failure StepResult) :=
    fun c => do return .ok (← advance c)
  have taken : (advances c (seizing id s)).Meets (fun t => t.settings = s.settings)
      (fun _ => True) fun reply _ => ∃ o, reply = .ok o ∧ Recording (RunsNode s c) c o := by
    apply Activity.meets_bind (advance_records c (seizing id s))
    intro o _ recording
    exact ⟨o, rfl, runs ▸ recording⟩
  have opened : step id s =
      (advances c (seizing id s)).andThen fun reply s' => .done (releasing id s') reply :=
    claiming_found advances free loaded
  rw [opened]
  exact taken.andThen fun _ _ holds => holds

/-- Watching a conversation changes nothing but what is watched. Take a conversation that operations
come to, and one that is the same but for the watching, in two parallel situations with stores that
neither fail nor alter what they are given. Whatever happens as the one is gone on with, the same
happens as the other is: the same is begun, asked, answered, published and given back, and what is
stored is the same again but for the watching. A step that runs a node of a conversation records
that once if the conversation is watched, and nothing otherwise. -/
theorem watching_unseen {id : String} {a b : Conversation} {s s' : Situation}
    (reachable : a.Reachable) (same : a.essence = b.essence) (parallel : s.Parallel s')
    (dependable : s.store.Dependable fun _ => True) (held : s.store.backing.get id = .ok (some a))
    (dependable' : s'.store.Dependable fun _ => True)
    (held' : s'.store.backing.get id = .ok (some b)) :
    (∀ history scene, Unfolds (fun _ _ u => u.Drives id) s history scene →
      ∃ history' scene', Unfolds (fun _ _ u => u.Drives id) s' history' scene' ∧
        List.Forall₂ (Happening.Alike ⟨id, a.debugMode, b.debugMode⟩) history history' ∧
        Scene.Alike ⟨id, a.debugMode, b.debugMode⟩ scene scene') ∧
    ∀ now c, now.store.Dependable (fun _ => True) → id ∉ now.claimed →
      now.store.backing.get id = .ok (some c) →
        (Engine.step id now).Meets (fun later => later.settings = now.settings) (fun _ => True)
          fun reply _ => ∃ o, reply = .ok o ∧ Recording (RunsNode now c) c o := by
  have shares : Watching.Shares ⟨id, a.debugMode, b.debugMode⟩ s s' := { parallel with
    dependable, dependable'
    held := ⟨a, b, held, held', ⟨same, reachable.unfailed, rfl, rfl⟩⟩ }
  exact ⟨fun history scene unfolds => unfolds.alongside shares,
    fun now c dependable free found => Engine.step_records dependable free found⟩

/-- The conversation of `greeted` with its steps recorded. -/
def watched : Situation :=
  Work.situation ((Undertaking.operation (.setRecording "c" true)).perform Engine.greeted)

/-- The conversation that a situation holds under an id. -/
def Situation.kept (s : Situation) (id : String) : Conversation :=
  ((s.store.backing.get id).toOption.join).getD default

theorem watched_step_unseen : ∃ history scene history' scene',
    (watched.kept "c").Reachable ∧
    (watched.kept "c").essence = (Engine.greeted.kept "c").essence ∧
    (watched.kept "c").debugMode = true ∧ (Engine.greeted.kept "c").debugMode = false ∧
    Unfolds (fun _ _ u => u.Drives "c") watched history scene ∧
    ((scene.now.kept "c").status, (scene.now.kept "c").trace.length) = (.pausedDebug, 1) ∧
    Unfolds (fun _ _ u => u.Drives "c") Engine.greeted history' scene' ∧
    List.Forall₂ (Happening.Alike ⟨"c", true, false⟩) history history' ∧
    Scene.Alike ⟨"c", true, false⟩ scene scene' := by
  have nothing : Unfolds (fun _ _ u => u.UsesStore) (.fresh .standard .memory default) []
      ⟨.fresh .standard .memory default, []⟩ := .start
  have registered := nothing.begin (.registration assistantFlow) trivial
  have started := registered.begin
    (.operation (.start (some "c") "assistant" (some "Hello"))) trivial
  have recorded := started.begin (.operation (.setRecording "c" true)) trivial
  have held : watched.store.backing.get "c" = .ok (some (watched.kept "c")) := by decide +kernel
  have held' : Engine.greeted.store.backing.get "c" = .ok (some (Engine.greeted.kept "c")) := by
    decide +kernel
  have reachable : (watched.kept "c").Reachable :=
    ⟨_, _, _, _, _, "c", .inl rfl, recorded, held⟩
  have same : (watched.kept "c").essence = (Engine.greeted.kept "c").essence := by decide +kernel
  have on : (watched.kept "c").debugMode = true := by decide +kernel
  have off : (Engine.greeted.kept "c").debugMode = false := by decide +kernel
  have parallel : watched.Parallel Engine.greeted :=
    ⟨by decide +kernel, by decide +kernel, by decide +kernel, by decide +kernel,
      by decide +kernel⟩
  have untouched : Unfolds (fun _ _ u => u.Drives "c") watched [] ⟨watched, []⟩ := .start
  have stepped := untouched.begin (.operation (.step "c")) .step
  obtain ⟨alike, -⟩ := watching_unseen reachable same parallel
    ⟨rfl, rfl, fun c _ => Store.returns_memory rfl c⟩ held
    ⟨rfl, rfl, fun c _ => Store.returns_memory rfl c⟩ held'
  rw [on, off] at alike
  obtain ⟨history', scene', unfolds, alike⟩ := alike _ _ stepped
  exact ⟨_, _, history', scene', reachable, same, on, off, stepped, by decide +kernel, unfolds,
    alike⟩

end DialogueEngine
