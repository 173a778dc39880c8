import DialogueEngine.Engine.Operation
import DialogueEngine.Proofs.Conversation.Moves
import DialogueEngine.Proofs.Flow.Search
import DialogueEngine.Proofs.Interaction.Guarantee
import DialogueEngine.Proofs.Store.Holding

/-!
Regimes: what is kept true of every conversation while operations work on them in turns, and under
which circumstances. An operation is orderly if it keeps to the regime as long as those who answer
it do. The specifications of the operations are stated for any regime; what a regime keeps has only
to survive the moves of a conversation and being written down.
-/

namespace DialogueEngine

/-! ## Gated flows -/

namespace Graph

/-- Every process of a flow requires approval. -/
def Gated (g : Graph) : Prop :=
  ∀ node ∈ g.nodes, ∀ spec, node.spec = .process spec → spec.requireApproval = true

theorem nodeAt_mem (g : Graph) (id : Option String) : g.nodeAt id ∈ g.nodes := by
  cases id with
  | none => exact g.start_mem
  | some id =>
    rw [g.nodeAt_some id]
    cases listed : g.node? id with
    | some node => exact List.mem_of_find?_eq_some listed
    | none => exact g.start_mem

end Graph

/-! ## Regimes -/

open Conversation (Moves)
open Transcript (Leads)

/-- What is kept true of every conversation, and under which circumstances. -/
structure Regime where
  keeps : Conversation → Prop
  /-- Whether every write succeeds. -/
  sure : Prop
  /-- Whether every process needs approval. -/
  gated : Prop
  settings : Settings
  durable : Conversation.Durable keeps
  fresh (id flow : String) (now : Instant) (debugMode : Bool) :
    keeps { Conversation.fresh id flow now with debugMode }
  greeted (id flow : String) (now : Instant) (debugMode : Bool) {m : Message}
    (role : m.role = .user) (later : Instant) :
    keeps ({ Conversation.fresh id flow now with debugMode }.push m later)
  moves {c c' : Conversation} (kept : keeps c) (moves : Moves sure c c') : keeps c'

namespace Regime

/-- A situation that keeps to a regime. -/
structure Orderly (r : Regime) (s : Situation) : Prop where
  holds : s.store.Holds r.keeps
  settings : s.settings = r.settings
  gated : r.gated → r.settings.approval.requireApproval = true ∨
    ∀ flow g, s.flows.get? flow = some g → g.Gated
  accepts : r.sure → s.store.Accepts

/-- A regime in which nothing is kept of conversations. -/
def lenient (settings : Settings) (sure : Prop) : Regime where
  keeps _ := True
  sure
  gated := False
  settings
  durable _ _ _ _ := trivial
  fresh _ _ _ _ := trivial
  greeted _ _ _ _ _ _ _ := trivial
  moves _ _ := trivial

theorem orderly_lenient {s : Situation} {settings : Settings} {sure : Prop}
    (same : s.settings = settings) (accepts : sure → s.store.Accepts) :
    (lenient settings sure).Orderly s :=
  ⟨fun _ _ _ => trivial, same, False.elim, accepts⟩

/-- The questions that may be asked in a regime: of the model with a transcript that goes on from a
conversation and leaves nothing open, and of the providers, where all is gated, only on approval. -/
def Poses (r : Regime) (approves : Prop) : Question → Prop
  | .complete _ messages _ => ∃ c front added, r.keeps c ∧ c.Ready ∧
      messages = front ++ (c.messages ++ added) ∧
      (front = [] ∨ ∃ m, front = [m] ∧ m.role = .system) ∧ Leads [] added []
  | .runTool .. => r.gated → approves
  | _ => True

variable {r : Regime} {s s' : Situation}

/-- Whether a situation is orderly does not depend on claims, requests, cursors, events and the
clock. -/
theorem Orderly.of_same (orderly : r.Orderly s) (store : s'.store = s.store)
    (settings : s'.settings = s.settings) (flows : s'.flows = s.flows) : r.Orderly s' where
  holds := store ▸ orderly.holds
  settings := settings.trans orderly.settings
  gated := flows ▸ orderly.gated
  accepts := store ▸ orderly.accepts

theorem Orderly.get (orderly : r.Orderly s) (id : String) :
    r.Orderly { s with store := (s.store.get id).2 } where
  holds := orderly.holds.get id
  settings := orderly.settings
  gated := orderly.gated
  accepts := fun sure refused member =>
    orderly.accepts sure refused (Store.writeRefusals_get id s.store ▸ member)

theorem Orderly.put (orderly : r.Orderly s) {c : Conversation} (kept : r.keeps c) :
    r.Orderly { s with store := (s.store.put c).2 } where
  holds := orderly.holds.put r.durable kept
  settings := orderly.settings
  gated := orderly.gated
  accepts := fun sure => (orderly.accepts sure).put c

end Regime

namespace Engine

/-! ## Orderly computations -/

variable {α β : Type} {r : Regime} {approves : Prop}

/-- A computation keeps to a regime, and its value satisfies `post`. -/
def Keeps (r : Regime) (approves : Prop) (x : Engine α) (post : α → Prop) : Prop :=
  ∀ s, r.Orderly s →
    (x s).Meets r.Orderly (r.Poses approves) fun a s' => r.Orderly s' ∧ post a

/-- A result satisfies `post` if it is not a failure. -/
def Given {ε : Type} (post : α → Prop) (x : Except ε α) : Prop := ∀ a, x = .ok a → post a

theorem Given.ok {ε : Type} {post : α → Prop} {a : α} (holds : post a) :
    Given post (.ok a : Except ε α) := by
  intro b same
  cases same
  exact holds

theorem Given.error {ε : Type} {post : α → Prop} (f : ε) :
    Given post (.error f : Except ε α) := by
  intro b same
  cases same

theorem Given.map {ε : Type} {post : α → Prop} {post' : β → Prop} {f : α → β} {x : Except ε α}
    (given : Given post x) (more : ∀ a, post a → post' (f a)) : Given post' (x.map f) := by
  cases x with
  | ok a => exact .ok (more a (given a rfl))
  | error e => exact .error e

/-- A result of which nothing is kept. -/
theorem Given.of_always {ε : Type} {post : β → Prop} {f : α → β} {x : Except ε α}
    (always : ∀ a, post (f a)) : Given post (x.map f) := by
  cases x with
  | ok a => exact .ok (always a)
  | error e => exact .error e

namespace Keeps

variable {x : Engine α} {f : α → Engine β} {mid post : α → Prop}

theorem pure {a : α} (holds : post a) : Keeps r approves (Pure.pure a) post :=
  fun _ orderly => ⟨orderly, holds⟩

theorem bind {post : β → Prop} (first : Keeps r approves x mid)
    (later : ∀ a, mid a → Keeps r approves (f a) post) : Keeps r approves (x >>= f) post :=
  fun s orderly =>
    Activity.meets_bind (first s orderly) fun a s' holds => later a holds.2 s' holds.1

theorem mono {post : α → Prop} (keeps : Keeps r approves x mid) (weaker : ∀ a, mid a → post a) :
    Keeps r approves x post :=
  fun s orderly => (keeps s orderly).mono (fun _ asked => asked)
    fun a _ holds => ⟨holds.1, weaker a holds.2⟩

end Keeps

/-! ## What the operations are made of -/

theorem keeps_situation : Keeps r approves situation r.Orderly :=
  fun _ orderly => ⟨orderly, orderly⟩

theorem keeps_ask (q : Question) (posed : r.Poses approves q) :
    Keeps r approves (ask q) fun _ => True :=
  fun _ orderly => ⟨orderly, posed, fun _ _ orderly' => ⟨orderly', trivial⟩⟩

theorem keeps_update {f : Situation → Situation} (store : ∀ s, (f s).store = s.store)
    (settings : ∀ s, (f s).settings = s.settings) (flows : ∀ s, (f s).flows = s.flows) :
    Keeps r approves (update f) fun _ => True :=
  fun s orderly => ⟨orderly.of_same (store s) (settings s) (flows s), trivial⟩

theorem keeps_publish (e : Event) : Keeps r approves (publish e) fun _ => True :=
  keeps_update (fun _ => rfl) (fun _ => rfl) fun _ => rfl

theorem keeps_stamp : Keeps r approves stamp fun _ => True :=
  fun _ orderly => ⟨orderly.of_same rfl rfl rfl, trivial⟩

theorem keeps_now : Keeps r approves now fun _ => True :=
  keeps_stamp.bind fun _ _ => .pure trivial

theorem keeps_tryClaim (id : String) : Keeps r approves (tryClaim id) fun _ => True := by
  intro s orderly
  unfold tryClaim
  split
  · exact ⟨orderly, trivial⟩
  · exact ⟨orderly.of_same rfl rfl rfl, trivial⟩

theorem keeps_release (id : String) : Keeps r approves (release id) fun _ => True :=
  keeps_update (fun _ => rfl) (fun _ => rfl) fun _ => rfl

theorem keeps_parkCancel (id : String) : Keeps r approves (parkCancel id) fun _ => True := by
  refine keeps_update (fun s => ?_) (fun s => ?_) fun s => ?_ <;> split <;> rfl

theorem keeps_takeCancel (id : String) : Keeps r approves (takeCancel id) fun _ => True :=
  fun _ orderly => ⟨orderly.of_same rfl rfl rfl, trivial⟩

theorem keeps_isToBeCancelled (c : Conversation) :
    Keeps r approves (isToBeCancelled c) fun _ => True := by
  unfold isToBeCancelled
  split
  · exact .pure trivial
  · exact keeps_situation.bind fun _ _ => .pure trivial

theorem keeps_read (id : String) :
    Keeps r approves (read id) (Given fun found => ∀ c, found = some c → r.keeps c) := by
  intro s orderly
  refine ⟨orderly.get id, fun found given c same => ?_⟩
  subst same
  exact orderly.holds.of_get given

theorem keeps_write {c : Conversation} (kept : r.keeps c) :
    Keeps r approves (write c) fun written => r.sure → written = .ok () :=
  fun _ orderly => ⟨orderly.put kept, fun sure => (orderly.accepts sure).put_ok c⟩

theorem keeps_load (id : String) : Keeps r approves (load id) (Given r.keeps) := by
  apply (keeps_read id).bind
  intro found given
  match found with
  | .error f => exact .pure (.error f)
  | .ok none => exact .pure (.error _)
  | .ok (some c) => exact .pure (.ok (given _ rfl c rfl))

/-- Where all is gated, a plan of a process of a registered flow requires approval. -/
theorem keeps_graph (flow : String) : Keeps r approves (graph flow)
    (Given fun g => r.gated → r.settings.approval.requireApproval = true ∨ g.Gated) := by
  apply keeps_situation.bind
  intro s orderly
  split
  · next g found =>
    exact .pure (.ok fun gated => (orderly.gated gated).imp id fun all => all flow g found)
  · exact .pure (.error _)

theorem keeps_claiming {id : String} {body : Engine (Except Failure α)} {post : α → Prop}
    (keeps : Keeps r approves body (Given post)) :
    Keeps r approves (claiming id body) (Given post) := by
  apply (keeps_tryClaim id).bind
  intro free _
  split
  · apply keeps.bind
    intro result given
    exact (keeps_release id).bind fun _ _ => .pure given
  · exact .pure (.error _)

/-! ## Writing and telling -/

/-- Writes what a step has made of a conversation and tells so, or gives the step up. -/
def concluding (c : Conversation) (node : Node) (run : Visit) : Engine StepResult := do
  match ← write c with
  | .error f => failStep c f
  | .ok () =>
    publish (.stepCompleted c.id node.id run.action)
    return ⟨c, run.action, node.next run.action⟩

/-- Writes a conversation in which a call has been answered and tells so. -/
def telling (c : Conversation) (call : String) (approved : Bool) :
    Engine (Except Failure Conversation) := do
  match ← write c with
  | .error f => return .error f
  | .ok () =>
    publish (.approvalResolved c.id call approved)
    return .ok c

theorem keeps_telling {c : Conversation} (kept : r.keeps c) (call : String) (approved : Bool) :
    Keeps r approves (telling c call approved) (Given r.keeps) := by
  apply (keeps_write kept).bind
  intro written _
  split
  · exact .pure (.error _)
  · exact (keeps_publish _).bind fun _ _ => .pure (.ok kept)

end Engine

end DialogueEngine
