import DialogueEngine.Engine.Operation
import DialogueEngine.Proofs.Interaction.Guarantee

/-!
Histories: what can happen when operations on conversations are begun in any order and carried out
in turns. An operation works until it asks something; while it waits for the answer others are
begun, go on and end. The answers are anybody's. What is begun is restricted only by what the
history `admits`.
-/

namespace DialogueEngine

/-- What may be begun. -/
inductive Undertaking where
  | operation (op : Operation)
  | registration (flow : AuthoredFlow)
  /-- A step with a conversation at hand. -/
  | stepWith (c : Conversation)

namespace Undertaking

/-- What an undertaking gives back. -/
abbrev Reply := Except Failure Operation.Outcome

/-- Carries out an undertaking. -/
def perform : Undertaking → Engine Reply
  | .operation op => op.perform
  | .registration flow => do return (← Engine.register flow).map fun _ => .done
  | .stepWith c => do return .ok (.step (← Engine.stepWith c))

/-- Whether an undertaking works on conversations as they are stored. -/
def UsesStore : Undertaking → Prop
  | .stepWith _ => False
  | _ => True

end Undertaking

/-- One entry of a history, with the situation at its time. -/
inductive Happening where
  | began (u : Undertaking) (now : Situation)
  | asked (u : Undertaking) (question : Question) (now : Situation)
  | answered (u : Undertaking) (question : Question) (answer : Answer question) (now : Situation)
  | ended (u : Undertaking) (reply : Undertaking.Reply) (now : Situation)

/-- An undertaking that waits for an answer. -/
structure Waiting where
  undertaking : Undertaking
  question : Question
  resume : Answer question → Situation →
    Interaction Situation Question Answer Undertaking.Reply

/-- Where a history stands. -/
structure Scene where
  now : Situation
  waiting : List Waiting

/-- The work of an undertaking up to its next question or its end. -/
abbrev Work := Interaction Situation Question Answer Undertaking.Reply

namespace Work

/-- The situation in which work stops. -/
def situation : Work → Situation
  | .done s _ => s
  | .ask s _ _ => s

/-- How work that stops goes into a history. -/
def happening (u : Undertaking) : Work → Happening
  | .done s reply => .ended u reply s
  | .ask s q _ => .asked u q s

/-- What is left of work that stops: an undertaking that waits, unless it has ended. -/
def waiting (u : Undertaking) : Work → List Waiting
  | .done _ _ => []
  | .ask _ q resume => [⟨u, q, resume⟩]

end Work

/-- The histories that can unfold from a situation, and where they stand. -/
inductive Unfolds (admits : List Happening → Situation → Undertaking → Prop) (s₀ : Situation) :
    List Happening → Scene → Prop
  | start : Unfolds admits s₀ [] ⟨s₀, []⟩
  | begin {history : List Happening} {scene : Scene} (u : Undertaking)
      (before : Unfolds admits s₀ history scene) (admitted : admits history scene.now u) :
      Unfolds admits s₀
        (history ++ [.began u scene.now, Work.happening u (u.perform scene.now)])
        ⟨Work.situation (u.perform scene.now),
          Work.waiting u (u.perform scene.now) ++ scene.waiting⟩
  | answer {history : List Happening} {now : Situation} {front back : List Waiting}
      (w : Waiting) (reply : Answer w.question)
      (before : Unfolds admits s₀ history ⟨now, front ++ w :: back⟩) :
      Unfolds admits s₀
        (history ++ [.answered w.undertaking w.question reply now,
          Work.happening w.undertaking (w.resume reply now)])
        ⟨Work.situation (w.resume reply now),
          Work.waiting w.undertaking (w.resume reply now) ++ (front ++ back)⟩

namespace Happening

/-- The situation at the time of an entry. -/
def now : Happening → Situation
  | .began _ s | .asked _ _ s | .answered _ _ _ s | .ended _ _ s => s

/-- An entry obeys an invariant of situations and rules for what undertakings ask and reply. -/
def Obeys (inv : Situation → Prop) (asks : Undertaking → Question → Prop)
    (ends : Undertaking → Undertaking.Reply → Prop) : Happening → Prop
  | .began _ s | .answered _ _ _ s => inv s
  | .asked u q s => inv s ∧ asks u q
  | .ended u reply s => inv s ∧ ends u reply

theorem Obeys.inv_now {inv : Situation → Prop} {asks : Undertaking → Question → Prop}
    {ends : Undertaking → Undertaking.Reply → Prop} {h : Happening}
    (obeys : h.Obeys inv asks ends) : inv h.now := by
  cases h with
  | began u s => exact obeys
  | asked u q s => exact obeys.1
  | answered u q a s => exact obeys
  | ended u reply s => exact obeys.1

end Happening

section Obeying

variable {inv : Situation → Prop} {asks : Undertaking → Question → Prop}
  {ends : Undertaking → Undertaking.Reply → Prop}

/-- Work that meets an invariant and rules for what is asked and replied. -/
abbrev Work.Obeys (inv : Situation → Prop) (asks : Undertaking → Question → Prop)
    (ends : Undertaking → Undertaking.Reply → Prop) (u : Undertaking) (x : Work) : Prop :=
  x.Meets inv (asks u) fun reply s => inv s ∧ ends u reply

theorem Work.Obeys.situation {u : Undertaking} {x : Work} (obeys : x.Obeys inv asks ends u) :
    inv x.situation := by
  cases x with
  | done s reply => exact obeys.1
  | ask s q resume => exact obeys.1

theorem Work.Obeys.happening {u : Undertaking} {x : Work} (obeys : x.Obeys inv asks ends u) :
    (x.happening u).Obeys inv asks ends := by
  cases x with
  | done s reply => exact obeys
  | ask s q resume => exact ⟨obeys.1, obeys.2.1⟩

/-- Whatever an undertaking that waits is answered, what it does next obeys. -/
abbrev Waiting.Obeys (inv : Situation → Prop) (asks : Undertaking → Question → Prop)
    (ends : Undertaking → Undertaking.Reply → Prop) (w : Waiting) : Prop :=
  ∀ (reply : Answer w.question) (s : Situation), inv s →
    Work.Obeys inv asks ends w.undertaking (w.resume reply s)

/-- What is left of work that stops waits among the others. -/
theorem Work.Obeys.waiting {u : Undertaking} {x : Work} (obeys : x.Obeys inv asks ends u)
    {others : List Waiting} (quiet : ∀ w ∈ others, w.Obeys inv asks ends) :
    ∀ w ∈ x.waiting u ++ others, w.Obeys inv asks ends := by
  intro w member
  cases x with
  | done s reply => exact quiet w member
  | ask s q resume =>
    rcases List.mem_cons.1 member with rfl | old
    · exact obeys.2.2
    · exact quiet w old

/-- What holds of a scene: the invariant, and that whatever waits will obey. -/
structure Scene.Obeys (inv : Situation → Prop) (asks : Undertaking → Question → Prop)
    (ends : Undertaking → Undertaking.Reply → Prop) (scene : Scene) : Prop where
  now : inv scene.now
  waiting : ∀ w ∈ scene.waiting, w.Obeys inv asks ends

/-- One step of a history: work is begun or goes on, and stops. -/
theorem Work.Obeys.step {history : List Happening} {others : List Waiting} {opening : Happening}
    {u : Undertaking} {x : Work} (work : x.Obeys inv asks ends u)
    (past : ∀ h ∈ history, h.Obeys inv asks ends) (opens : opening.Obeys inv asks ends)
    (quiet : ∀ w ∈ others, w.Obeys inv asks ends) :
    (∀ h ∈ history ++ [opening, x.happening u], h.Obeys inv asks ends) ∧
      Scene.Obeys inv asks ends ⟨x.situation, x.waiting u ++ others⟩ := by
  refine ⟨?_, work.situation, work.waiting quiet⟩
  intro h member
  rcases List.mem_append.1 member with old | new
  · exact past h old
  rcases List.mem_cons.1 new with rfl | last
  · exact opens
  · obtain rfl := List.mem_singleton.1 last
    exact work.happening

theorem Waiting.mem_of_mem_others {w other : Waiting} {front back : List Waiting}
    (member : other ∈ front ++ back) : other ∈ front ++ w :: back :=
  ((List.sublist_cons_self w back).append_left front).subset member

/-- If everything that is admitted obeys from its beginning, then everything that happens obeys. -/
theorem Unfolds.obeys {admits : List Happening → Situation → Undertaking → Prop}
    {s₀ : Situation} (start : inv s₀)
    (each : ∀ history s u, (∀ h ∈ history, h.Obeys inv asks ends) → admits history s u → inv s →
      Work.Obeys inv asks ends u (u.perform s))
    {history : List Happening} {scene : Scene} (unfolds : Unfolds admits s₀ history scene) :
    (∀ h ∈ history, h.Obeys inv asks ends) ∧ scene.Obeys inv asks ends := by
  induction unfolds with
  | start => exact ⟨fun h none => absurd none List.not_mem_nil, start,
      fun w none => absurd none List.not_mem_nil⟩
  | @begin history scene u before admitted ih =>
    obtain ⟨past, present⟩ := ih
    have work := each history scene.now u past admitted present.now
    exact work.step past present.now present.waiting
  | @answer history now front back w reply before ih =>
    obtain ⟨past, present⟩ := ih
    have work := present.waiting w List.mem_append_cons_self reply now present.now
    have quiet (other : Waiting) (member : other ∈ front ++ back) : other.Obeys inv asks ends :=
      present.waiting other (Waiting.mem_of_mem_others member)
    exact work.step past present.now quiet

end Obeying

/-! ## Playing histories through -/

namespace Scene

/-- How the answer of a function to the one who waits in front goes into a history. -/
def answering (f : (q : Question) → Answer q) (scene : Scene) : List Happening :=
  match scene.waiting with
  | [] => []
  | w :: _ => [.answered w.undertaking w.question (f w.question) scene.now,
    Work.happening w.undertaking (w.resume (f w.question) scene.now)]

/-- Where the history stands then. -/
def answered (f : (q : Question) → Answer q) (scene : Scene) : Scene :=
  match scene.waiting with
  | [] => scene
  | w :: others => ⟨Work.situation (w.resume (f w.question) scene.now),
    Work.waiting w.undertaking (w.resume (f w.question) scene.now) ++ others⟩

end Scene

/-- Whoever waits in front is answered, whatever has happened meanwhile. -/
theorem Unfolds.answered {admits : List Happening → Situation → Undertaking → Prop}
    {s₀ : Situation} {history : List Happening} {scene : Scene}
    (before : Unfolds admits s₀ history scene) (f : (q : Question) → Answer q) :
    Unfolds admits s₀ (history ++ scene.answering f) (scene.answered f) := by
  obtain ⟨now, waiting⟩ := scene
  cases waiting with
  | nil =>
    rw [Scene.answering, List.append_nil]
    exact before
  | cons w others =>
    have first : Unfolds admits s₀ history ⟨now, [] ++ w :: others⟩ := before
    exact first.answer w (f w.question)

namespace Work

/-- Work that goes on with the answer of a function, unless it has ended. -/
def resumed (f : (q : Question) → Answer q) : Work → Work
  | .done s reply => .done s reply
  | .ask s q resume => resume (f q) s

/-- How work that goes on with the answer of a function goes into a history. -/
def resuming (f : (q : Question) → Answer q) (u : Undertaking) : Work → List Happening
  | .done _ _ => []
  | .ask s q resume => [.answered u q (f q) s, happening u (resume (f q) s)]

end Work

/-- The undertaking in front is the next to be answered. -/
theorem Unfolds.resumed {admits : List Happening → Situation → Undertaking → Prop}
    {s₀ : Situation} {history : List Happening} {u : Undertaking} {x : Work}
    {others : List Waiting}
    (before : Unfolds admits s₀ history ⟨x.situation, x.waiting u ++ others⟩)
    (f : (q : Question) → Answer q) :
    Unfolds admits s₀ (history ++ x.resuming f u)
      ⟨(x.resumed f).situation, (x.resumed f).waiting u ++ others⟩ := by
  cases x with
  | done s reply =>
    rw [Work.resuming, List.append_nil]
    exact before
  | ask s q resume => exact before.answered f

/-- Work that goes on with the answers of a function, so many times. -/
def Work.played (f : (q : Question) → Answer q) : Nat → Work → Work
  | 0, x => x
  | n + 1, x => played f n (x.resumed f)

theorem Unfolds.played {admits : List Happening → Situation → Undertaking → Prop}
    {s₀ : Situation} {history : List Happening} {u : Undertaking} {x : Work}
    {others : List Waiting}
    (before : Unfolds admits s₀ history ⟨x.situation, x.waiting u ++ others⟩)
    (last : x.happening u ∈ history) (f : (q : Question) → Answer q) (n : Nat) :
    ∃ history', Unfolds admits s₀ history'
      ⟨(x.played f n).situation, (x.played f n).waiting u ++ others⟩ ∧
      (x.played f n).happening u ∈ history' := by
  induction n generalizing x history with
  | zero => exact ⟨history, before, last⟩
  | succ n ih =>
    refine ih (before.resumed f) ?_
    cases x with
    | done s reply => exact List.mem_append_left _ last
    | ask s q resume => exact List.mem_append_right _ (by simp [Work.resuming, Work.resumed])

/-- A flow of a start, a process and a finish. -/
def assistantFlow : AuthoredFlow where
  id := "assistant"
  name := "Assistant"
  nodes := [⟨"start", "Start", "start", .null⟩,
    ⟨"agent", "Agent", "process", .object [("boundModel", .string "m")]⟩,
    ⟨"finish", "Done", "finish", .null⟩]
  edges := [⟨"e1", "start", "agent", .routing, none⟩, ⟨"e2", "agent", "finish", .routing, none⟩]

/-- A model that gives one answer to everything. -/
def modelAnswering (content : String) (calls : List ToolCall) (q : Question) : Answer q :=
  match q with
  | .complete .. => .ok ⟨content, calls⟩
  | _ => default

end DialogueEngine
