import DialogueEngine.Proofs.Engine.Abreast
import DialogueEngine.Proofs.History.Approval
import DialogueEngine.Proofs.History.Stepping

/-!
Histories in the lifetime of a client of the tool providers. At every moment the client is what it
has become by then, and it answers for itself. A conversation that was started in this time never
serves a listing but the one that the client has at the moment at which it is served.
-/

namespace DialogueEngine

-- Powers are those of the core library, whatever else is imported.
attribute [local instance (high)] instPowNat

open Conversation (Watched)
open Engine (Given)

/-- A client in the course of a history: what it is at each of its entries. -/
structure Client.Lifetime where
  moment : Nat → Client
  becomes (n : Nat) : (moment n).Becomes (moment (n + 1))

namespace Client.Lifetime

variable (life : Lifetime)

theorem becomes_of_le {m n : Nat} (le : m ≤ n) : (life.moment m).Becomes (life.moment n) := by
  induction n, le using Nat.le_induction with
  | base => exact .refl _
  | succ n _ ih => exact ih.trans (life.becomes n)

/-- A client that never changes. -/
def still (k : Client) : Lifetime := ⟨fun _ => k, fun _ => .refl k⟩

end Client.Lifetime

/-- An answer in a history is one that the client gives at that moment. -/
def Happening.Honest (k : Client) : Happening → Prop
  | .answered _ q answer _ => k.Answers q answer
  | _ => True

/-- All that is answered in a history is answered by the client, as it is at the time. -/
def Client.Lifetime.Answers (life : Lifetime) (history : List Happening) : Prop :=
  ∀ (n : Nat) (h : Happening), history[n]? = some h → h.Honest (life.moment n)

theorem Client.Lifetime.Answers.before {life : Lifetime} {history more : List Happening}
    (answers : life.Answers (history ++ more)) : life.Answers history := by
  intro n h found
  have inside : n < history.length := (List.getElem?_eq_some_iff.1 found).1
  exact answers n h ((List.getElem?_append_left inside).trans found)

/-- What may be begun where a conversation is watched: where it is given by hand, it was given back
before. -/
def Undertaking.Resumes (id : String) (history : List Happening) : Undertaking → Prop
  | .stepWith c => c.id = id → ∃ u outcome s, .ended u (.ok outcome) s ∈ history ∧
      outcome.conversation? = some c
  | _ => True

section Watching

variable {id : String} {whole : Prop} {k k' : Client} {s : Situation} {history : List Happening}

/-- Work that keeps abreast of the client and gives back what is. -/
abbrev Work.Tracks (id : String) (whole : Prop) (k : Client) (x : Work) : Prop :=
  Interaction.Tracks id whole (fun k => Given (·.Kept (Watched id whole k))) k x

/-- Whoever waits consults revisions, and keeps abreast of the client whenever it is answered. -/
structure Waiting.Tracks (id : String) (whole : Prop) (k : Client) (w : Waiting) : Prop where
  consults : Interaction.Consults id whole k w.question w.resume
  goesOn (answer : Answer w.question) (k' : Client) (s : Situation) (becomes : k.Becomes k')
    (honest : k'.Answers w.question answer) (abreast : s.Abreast id whole k') :
    Work.Tracks id whole k' (w.resume answer s)

/-- Where a history stands: what is shared, what waits and what was given back are abreast of the
client. -/
structure Scene.Abreast (id : String) (whole : Prop) (k : Client) (history : List Happening)
    (scene : Scene) : Prop where
  now : scene.now.Abreast id whole k
  waiting : ∀ w ∈ scene.waiting, w.Tracks id whole k
  given : ∀ u outcome s, .ended u (.ok outcome) s ∈ history → outcome.Kept (Watched id whole k)

theorem Waiting.Tracks.later {w : Waiting} (tracks : w.Tracks id whole k) (becomes : k.Becomes k') :
    w.Tracks id whole k' where
  consults := tracks.consults.later becomes
  goesOn answer k'' s further := tracks.goesOn answer k'' s (becomes.trans further)

theorem Operation.Outcome.Kept.later {outcome : Operation.Outcome}
    (kept : outcome.Kept (Watched id whole k)) (becomes : k.Becomes k') :
    outcome.Kept (Watched id whole k') := by
  cases outcome with
  | conversation c => exact Watched.later kept becomes
  | step o => exact Watched.later kept becomes
  | done => trivial
  | record r => trivial

theorem Scene.Abreast.later {scene : Scene} (abreast : scene.Abreast id whole k history)
    (becomes : k.Becomes k') : scene.Abreast id whole k' history where
  now := abreast.now.later becomes
  waiting := fun w member => (abreast.waiting w member).later becomes
  given := fun u outcome s ended => (abreast.given u outcome s ended).later becomes

/-- What an undertaking does keeps abreast of the client. -/
theorem Undertaking.Resumes.tracks {u : Undertaking} (resumes : u.Resumes id history)
    (given : ∀ u outcome s, .ended u (.ok outcome) s ∈ history →
      outcome.Kept (Watched id whole k)) (abreast : s.Abreast id whole k) :
    Work.Tracks id whole k (u.perform s) := by
  have tracks : Engine.Tracks id whole k u.perform
      fun k => Given (·.Kept (Watched id whole k)) := by
    cases u with
    | operation op => exact Engine.tracks_perform op
    | registration flow =>
      exact (Engine.tracks_register flow).silent fun _ _ => trivial
    | stepWith c =>
      have watched : c.Watched id whole k := by
        intro same
        obtain ⟨u, outcome, s, ended, gave⟩ := resumes same
        exact (given u outcome s ended).of_conversation? gave same
      exact (Engine.tracks_stepWith watched).bind fun _ o _ watched => .pure (.ok watched)
  exact tracks s abreast

/-- One step of a history: work is begun or goes on, and stops. -/
theorem Work.Tracks.step {u : Undertaking} {x : Work} {others : List Waiting}
    (tracks : Work.Tracks id whole k x) (opening : Happening)
    (given : ∀ u outcome s, .ended u (.ok outcome) s ∈ history →
      outcome.Kept (Watched id whole k))
    (opens : ∀ u outcome s, opening ≠ .ended u (.ok outcome) s)
    (waiting : ∀ w ∈ others, w.Tracks id whole k) :
    Scene.Abreast id whole k (history ++ [opening, x.happening u])
      ⟨x.situation, x.waiting u ++ others⟩ := by
  have earlier (u' : Undertaking) (outcome : Operation.Outcome) (s : Situation)
      (ended : .ended u' (.ok outcome) s ∈ history ++ [opening, x.happening u]) :
      .ended u' (.ok outcome) s ∈ history ∨ .ended u' (.ok outcome) s = x.happening u := by
    rcases List.mem_append.1 ended with old | new
    · exact .inl old
    rcases List.mem_cons.1 new with first | last
    · exact absurd first.symm (opens u' outcome s)
    · exact .inr (List.mem_singleton.1 last)
  cases x with
  | done s reply =>
    refine ⟨tracks.1, waiting, fun u' outcome s' ended => ?_⟩
    rcases earlier u' outcome s' ended with old | last
    · exact given u' outcome s' old
    · cases last
      exact tracks.2 outcome rfl
  | ask s q resume =>
    refine ⟨tracks.1, fun w member => ?_, fun u' outcome s' ended => ?_⟩
    · rcases List.mem_cons.1 member with rfl | old
      · exact ⟨tracks.2.1, tracks.2.2⟩
      · exact waiting w old
    · rcases earlier u' outcome s' ended with old | last
      · exact given u' outcome s' old
      · cases last

/-- All along a history everything is abreast of the client. -/
theorem Unfolds.abreast {life : Client.Lifetime}
    {admits : List Happening → Situation → Undertaking → Prop} {s₀ : Situation} {scene : Scene}
    (absent : s₀.store.Holds fun c => c.id ≠ id)
    (resumes : ∀ history s u, admits history s u → u.Resumes id history)
    (unfolds : Unfolds admits s₀ history scene) (answers : life.Answers history) :
    scene.Abreast id s₀.store.KeepsWhole (life.moment history.length) history := by
  induction unfolds with
  | start =>
    exact ⟨⟨fun key c found same => absurd same (absent key c found), fun whole => whole⟩,
      fun w none => absurd none List.not_mem_nil,
      fun u outcome s none => absurd none List.not_mem_nil⟩
  | @begin history scene u before admitted ih =>
    have later := life.becomes_of_le (Nat.le_add_right history.length 2)
    have present := (ih answers.before).later later
    have work := (resumes _ _ _ admitted).tracks present.given present.now
    rw [List.length_append]
    exact work.step (.began u scene.now) present.given
      (fun _ _ _ same => Happening.noConfusion same) present.waiting
  | @answer history now front back w reply before ih =>
    have present := ih answers.before
    have honest : (life.moment history.length).Answers w.question reply :=
      answers history.length (.answered w.undertaking w.question reply now) (by simp)
    have work := (present.waiting w List.mem_append_cons_self).goesOn reply _ now (.refl _) honest
      present.now
    have others (other : Waiting) (member : other ∈ front ++ back) :=
      present.waiting other (Waiting.mem_of_mem_others member)
    have step := work.step (u := w.undertaking) (.answered w.undertaking w.question reply now)
      present.given (fun _ _ _ same => Happening.noConfusion same) others
    rw [List.length_append]
    exact step.later (life.becomes_of_le (Nat.le_add_right history.length 2))

end Watching

/-! ## Playing histories through with a client -/

/-- What a client answers about its providers; the model gives one answer to everything. -/
def Client.answering (k : Client) (q : Question) : Answer q :=
  match q with
  | .revision provider => k.revision provider
  | .listing provider => .ok (k.listing provider)
  | .hasConnection _ => true
  | .complete .. => .ok ⟨"Hi", []⟩
  | _ => default

namespace Work

/-- Work that goes on with what a client answers, so many times. -/
def consulted (k : Client) : Nat → Work → Work
  | 0, x => x
  | n + 1, x => consulted k n (x.resumed k.answering)

/-- The conversation that work gives back at its end. -/
def given? : Work → Option Conversation
  | .done _ (.ok outcome) => outcome.conversation?
  | _ => none

theorem ended_of_given {x : Work} {c : Conversation} (given : x.given? = some c)
    (u : Undertaking) : ∃ outcome s, x.happening u = .ended u (.ok outcome) s ∧
      outcome.conversation? = some c := by
  match x with
  | .done s (.ok outcome) => exact ⟨outcome, s, rfl, given⟩
  | .done s (.error f) => cases given
  | .ask s q resume => cases given

end Work

namespace Client

theorem answers_answering (k : Client) (q : Question) : k.Answers q (k.answering q) := by
  cases q <;> first | rfl | trivial

/-- A history in which a conversation is watched while the client stays the same. -/
structure Sees (k : Client) (id : String) (s₀ : Situation) (history : List Happening)
    (scene : Scene) : Prop where
  unfolds : Unfolds (fun history _ u => u.Resumes id history) s₀ history scene
  honest : ∀ h ∈ history, h.Honest k

namespace Sees

variable {k : Client} {id : String} {s₀ : Situation} {history : List Happening} {scene : Scene}

theorem start (k : Client) (id : String) (s₀ : Situation) : k.Sees id s₀ [] ⟨s₀, []⟩ :=
  ⟨.start, fun _ none => absurd none List.not_mem_nil⟩

theorem answers (sees : k.Sees id s₀ history scene) : (Lifetime.still k).Answers history :=
  fun _ h found => sees.honest h (List.mem_of_getElem? found)

theorem begin (sees : k.Sees id s₀ history scene) (u : Undertaking)
    (resumes : u.Resumes id history) :
    k.Sees id s₀ (history ++ [.began u scene.now, Work.happening u (u.perform scene.now)])
      ⟨Work.situation (u.perform scene.now),
        Work.waiting u (u.perform scene.now) ++ scene.waiting⟩ where
  unfolds := sees.unfolds.begin u resumes
  honest := by
    intro h member
    rcases List.mem_append.1 member with old | new
    · exact sees.honest h old
    rcases List.mem_cons.1 new with rfl | last
    · trivial
    · obtain rfl := List.mem_singleton.1 last
      cases u.perform scene.now <;> trivial

/-- The undertaking in front is the next to be answered. -/
theorem resumed {u : Undertaking} {x : Work} {others : List Waiting}
    (sees : k.Sees id s₀ history ⟨x.situation, x.waiting u ++ others⟩) :
    k.Sees id s₀ (history ++ x.resuming k.answering u)
      ⟨(x.resumed k.answering).situation, (x.resumed k.answering).waiting u ++ others⟩ where
  unfolds := sees.unfolds.resumed k.answering
  honest := by
    intro h member
    rcases List.mem_append.1 member with old | new
    · exact sees.honest h old
    cases x with
    | done s reply => cases new
    | ask s q resume =>
      rcases List.mem_cons.1 new with rfl | last
      · exact k.answers_answering q
      · obtain rfl := List.mem_singleton.1 last
        cases resume (k.answering q) s <;> trivial

theorem consulted {u : Undertaking} {x : Work} {others : List Waiting}
    (sees : k.Sees id s₀ history ⟨x.situation, x.waiting u ++ others⟩)
    (last : x.happening u ∈ history) (n : Nat) :
    ∃ history', k.Sees id s₀ history'
      ⟨(x.consulted k n).situation, (x.consulted k n).waiting u ++ others⟩ ∧
      (x.consulted k n).happening u ∈ history' := by
  induction n generalizing x history with
  | zero => exact ⟨history, sees, last⟩
  | succ n ih =>
    refine ih sees.resumed ?_
    cases x with
    | done s reply => exact List.mem_append_left _ last
    | ask s q resume => exact List.mem_append_right _ (by simp [Work.resuming, Work.resumed])

end Sees

end Client

/-! ## A provider of one tool -/

/-- A flow of a start and two processes that are bound to one provider. -/
def searchFlow : AuthoredFlow where
  id := "search"
  name := "Search"
  nodes := [⟨"start", "Start", "start", .null⟩,
    ⟨"one", "One", "process", .object [("boundModel", .string "m")]⟩,
    ⟨"two", "Two", "process", .object [("boundModel", .string "m")]⟩,
    ⟨"tools", "Tools", "toolProvider", .object [("boundProvider", .string "search")]⟩]
  edges := [⟨"e1", "start", "one", .routing, none⟩, ⟨"e2", "one", "two", .routing, none⟩,
    ⟨"b1", "one", "tools", .toolBinding, none⟩, ⟨"b2", "two", "tools", .toolBinding, none⟩]

/-- A client whose providers all list one tool, with a default for what it is called with. -/
def Client.finding (v : Json) (held : v.Held) : Client where
  revision _ := 1
  listing _ := [⟨"find", "Finds", .object [("default", v), ("type", .string "object")]⟩]
  counted _ := by decide
  held provider t member := by
    obtain rfl := List.mem_singleton.1 member
    exact ⟨Json.ordered_of_map ["default", "type"] rfl (by decide), held, trivial, trivial⟩

/-! ## Rows -/

/-- What a conversation comes to that is put into rows and looked for. -/
theorem Store.get_put_row {c : Conversation} (held : c.Held)
    (fits : c.toJson.depth ≤ Json.textLevels) (rows : List Row) :
    (Backing.put c (.table rows)).get c.id = .ok (some c.rounded) := by
  have read : Conversation.read.ofText (Row.ofConversation c).document = .ok c.rounded :=
    (Conversation.read_written held).trans (if_pos fits)
  have id : (Row.ofConversation c).id = c.id := rfl
  simp [Backing.put, Backing.get, Row.find?_put, id, read]

/-- What a step with a conversation at hand leaves that lets a run go on has just been written. -/
theorem Engine.stepWith_leaves (c : Conversation) (s : Situation) :
    (stepWith c s).Meets (fun _ => True) (fun _ => True) fun o s' =>
      o.continues = true → ∃ b, s'.store.backing = Backing.put o.conversation b := by
  unfold stepWith
  dsimp only
  split
  · exact nofun
  · apply Activity.meets_bind (Activity.Yields.always _ _)
    intro free s₁ _
    split
    · exact Activity.meets_bind (advance_leaves c s₁) fun o s₂ written => written
    · exact nofun

namespace Work

variable {k : Client} {x : Work}

/-- Work that goes on with a conversation that it gave back. -/
def stepped (k : Client) (n : Nat) (x : Work) : Work :=
  consulted k n ((Undertaking.stepWith (x.given?.getD default)).perform x.situation)

/-- Whether work ended in a step after which a run goes on. -/
def goesOn : Work → Bool
  | .done _ (.ok (.step o)) => o.continues
  | _ => false

/-- Whether work waits for the revision of a provider. -/
def consults (provider : String) : Work → Bool
  | .ask _ (.revision other) _ => other = provider
  | _ => false

/-- The model and the tools that work calls it with. -/
def calls? : Work → Option (String × List DeclaredTool)
  | .ask _ (.complete model _ tools) _ => some (model, tools)
  | _ => none

theorem meets_consulted {post : Undertaking.Reply → Situation → Prop}
    (meets : x.Meets (fun _ => True) (fun _ => True) post) (n : Nat) :
    (x.consulted k n).Meets (fun _ => True) (fun _ => True) post := by
  induction n generalizing x with
  | zero => exact meets
  | succ n ih =>
    cases x with
    | done s reply => exact @ih (.done s reply) meets
    | ask s q resume => exact ih (meets.2.2 (k.answering q) s trivial)

/-- Where a step was taken after which a run goes on, the conversation has just been written. -/
theorem written_of_goesOn (n : Nat) (goes : (x.stepped k n).goesOn = true) :
    ∃ b, (x.stepped k n).situation.store.backing =
      Backing.put ((x.stepped k n).given?.getD default) b := by
  have leaves : ((Undertaking.stepWith (x.given?.getD default)).perform x.situation).Meets
      (fun _ => True) (fun _ => True) fun reply s => ∀ o, reply = .ok (.step o) →
        o.continues = true → ∃ b, s.store.backing = Backing.put o.conversation b := by
    apply Activity.meets_bind (Engine.stepWith_leaves _ _)
    intro o s written o' same
    cases same
    exact written
  have meets : (x.stepped k n).Meets (fun _ => True) (fun _ => True) fun reply s =>
      ∀ o, reply = .ok (.step o) → o.continues = true →
        ∃ b, s.store.backing = Backing.put o.conversation b := meets_consulted leaves n
  revert meets goes
  generalize x.stepped k n = y
  intro goes meets
  cases y with
  | ask s q resume => cases goes
  | done s reply =>
    cases reply with
    | error f => cases goes
    | ok outcome =>
      cases outcome with
      | step o => exact meets o rfl goes
      | _ => cases goes

theorem eq_ask_of_consults {provider : String} (waits : x.consults provider = true) :
    ∃ s resume, x = .ask s (.revision provider) resume := by
  cases x with
  | done s reply => cases waits
  | ask s q resume =>
    cases q with
    | revision other =>
      obtain rfl : other = provider := of_decide_eq_true waits
      exact ⟨s, resume, rfl⟩
    | _ => cases waits

theorem eq_ask_of_calls {model : String} {tools : List DeclaredTool}
    (calls : x.calls? = some (model, tools)) :
    ∃ s messages resume, x = .ask s (.complete model messages tools) resume := by
  cases x with
  | done s reply => cases calls
  | ask s q resume =>
    cases q with
    | complete model' messages tools' =>
      cases calls
      exact ⟨s, messages, resume, rfl⟩
    | _ => cases calls

/-- Whether work has ended. -/
def ended : Work → Bool
  | .done _ _ => true
  | .ask _ _ _ => false

theorem waiting_of_ended (u : Undertaking) (ended : x.ended = true) : x.waiting u = [] := by
  cases x with
  | done s reply => rfl
  | ask s q resume => cases ended

end Work

/-- Work that a history can end with while the client stays the same. -/
def Client.Reaches (k : Client) (id : String) (s₀ : Situation) (x : Work) : Prop :=
  ∃ history u, k.Sees id s₀ history ⟨x.situation, []⟩ ∧ x.happening u ∈ history

theorem Client.Sees.reaches {k : Client} {id : String} {s₀ s : Situation}
    {history : List Happening} (sees : k.Sees id s₀ history ⟨s, []⟩) (u : Undertaking)
    (resumes : u.Resumes id history) (ended : Work.ended (u.perform s) = true) :
    k.Reaches id s₀ (u.perform s) := by
  have later := sees.begin u resumes
  rw [Work.waiting_of_ended u ended] at later
  exact ⟨_, u, later, List.mem_append_right _ (by simp)⟩

/-- The conversation that was given back is gone on with. -/
theorem Client.Reaches.stepped {k : Client} {id : String} {s₀ : Situation} {x : Work}
    (reaches : k.Reaches id s₀ x) {n : Nat} (given : x.given?.isSome = true)
    (ended : (x.stepped k n).ended = true) : k.Reaches id s₀ (x.stepped k n) := by
  obtain ⟨history, u, sees, last⟩ := reaches
  have resumes : (Undertaking.stepWith (x.given?.getD default)).Resumes id history := by
    intro _
    obtain ⟨c, gave⟩ := Option.isSome_iff_exists.1 given
    obtain ⟨outcome, s, same, back⟩ := Work.ended_of_given gave u
    exact ⟨u, outcome, s, same ▸ last, by rw [back, gave, Option.getD_some]⟩
  obtain ⟨history', later, last'⟩ :=
    (sees.begin _ resumes).consulted (List.mem_append_right _ (by simp)) n
  refine ⟨history', _, ?_, last'⟩
  have none := Work.waiting_of_ended (.stepWith (x.given?.getD default)) ended
  unfold Work.stepped at none ⊢
  rw [none] at later
  exact later

/-! ## A listing that is written down -/

/-- A step of a conversation that has been read. -/
def Work.stepRead (id : String) (c : Conversation) (s : Situation) : Work :=
  (Engine.advance c (Engine.seizing id s)).andThen fun o s' =>
    .done (Engine.releasing id s') (.ok (.step o))

theorem Work.perform_step {id : String} {c : Conversation} {s : Situation} (free : id ∉ s.claimed)
    (loaded : Engine.load id (Engine.seizing id s) = .done (Engine.seizing id s) (.ok c)) :
    (Undertaking.operation (.step id)).perform s = stepRead id c s := by
  let advances : Conversation → Engine (Except Failure StepResult) :=
    fun c => do return .ok (← Engine.advance c)
  have opened : Engine.step id s =
      (advances c (Engine.seizing id s)).andThen fun reply s' =>
        .done (Engine.releasing id s') reply :=
    Engine.claiming_found advances free loaded
  change (Engine.step id s).andThen _ = _
  rw [opened]
  exact (Interaction.andThen_assoc _ _ _).trans (Interaction.andThen_assoc _ _ _)

/-- A client that lists a double whose text is read as another one. -/
def Client.inexact : Client := .finding (.number (.double ⟨0x3abef2d0f5da7dd9⟩)) (by decide)

/-- A conversation is started in a store of rows, and two steps are taken with it at hand. -/
def listedOnce : Work :=
  let started := (Undertaking.operation (.start (some "c") "search" none)).perform
    (Work.situation ((Undertaking.registration searchFlow).perform
      (.fresh .standard .table default)))
  Work.stepped .inexact 4 (Work.stepped .inexact 0 started)

/-- The conversation as it is read then. -/
def rereadOnce : Conversation := (listedOnce.given?.getD default).rounded

theorem listedOnce_reached :
    Client.inexact.Reaches "c" (.fresh .standard .table default) listedOnce := by
  have nothing := Client.Sees.start .inexact "c" (.fresh .standard .table default)
  obtain ⟨_, _, registered, -⟩ :=
    nothing.reaches (.registration searchFlow) trivial (by decide +kernel)
  have started := registered.reaches (.operation (.start (some "c") "search" none)) trivial
    (by decide +kernel)
  have first := started.stepped (n := 0) (by decide +kernel) (by decide +kernel)
  exact first.stepped (n := 4) (by decide +kernel) (by decide +kernel)

/-- The row is not read here: what was written is known, and so is what reading gives. -/
theorem rereadOnce_found :
    listedOnce.situation.store.backing.get "c" = .ok (some rereadOnce) := by
  have named : (listedOnce.given?.getD default).id = "c" := by decide +kernel
  have table : (match listedOnce.situation.store.backing with
    | .table _ => true
    | .memory _ => false) = true := by decide +kernel
  obtain ⟨b, written⟩ : ∃ b, listedOnce.situation.store.backing =
      Backing.put (listedOnce.given?.getD default) b :=
    Work.written_of_goesOn 4 (by decide +kernel)
  rw [written] at table ⊢
  cases b with
  | memory conversations => cases table
  | table rows =>
    rw [← named]
    exact Store.get_put_row (by decide +kernel) (by decide +kernel) rows

theorem rereadOnce_stepped : (Undertaking.operation (.step "c")).perform listedOnce.situation =
    Work.stepRead "c" rereadOnce listedOnce.situation := by
  have dependable : (Engine.seizing "c" listedOnce.situation).store.Dependable fun _ => False :=
    ⟨by decide +kernel, by decide +kernel, fun _ => False.elim⟩
  exact Work.perform_step (by decide +kernel) (Engine.load_found dependable rereadOnce_found)

/-! ## Serving -/

/-- Where conversations are written down a listing can be served that the client never had: a step
waits for a revision, and the conversation that it has read keeps a listing of that revision which
is not the client's; it is told the revision, and calls the model with that listing. -/
theorem reread_listing_served : ∃ history before now c tools resume s messages specs later,
    Unfolds (fun history _ u => u.Resumes "c" history) (.fresh .standard .table default)
      (history ++ [.began (.operation (.step "c")) before,
        .asked (.operation (.step "c")) (.revision "search") now])
      ⟨now, [⟨.operation (.step "c"), .revision "search", resume⟩]⟩ ∧
    (Client.Lifetime.still .inexact).Answers (history ++ [.began (.operation (.step "c")) before,
      .asked (.operation (.step "c")) (.revision "search") now]) ∧
    before.store.backing.get "c" = .ok (some c) ∧
    c.keptListing "search" (Client.inexact.revision "search") = some tools ∧
    tools ≠ OfferedTool.ofListing "search" (Client.inexact.listing "search") ∧
    resume (Client.inexact.revision "search") now = .ask s (.complete "m" messages specs) later ∧
    ListedTool.declareAll (tools.map (·.definition)) = .ok specs := by
  obtain ⟨history, u, sees, -⟩ := listedOnce_reached
  have waits : (Work.stepRead "c" rereadOnce listedOnce.situation).consults "search" = true := by
    decide +kernel
  obtain ⟨now, resume, asks⟩ := Work.eq_ask_of_consults waits
  have stepped := sees.begin (.operation (.step "c")) trivial
  dsimp only at stepped
  rw [rereadOnce_stepped, asks] at stepped
  -- What the conversation keeps is served, and it is not what the client lists.
  have keeps : (rereadOnce.keptListing "search" 1).isSome = true := by decide +kernel
  obtain ⟨tools, kept⟩ := Option.isSome_iff_exists.1 keeps
  have different : rereadOnce.keptListing "search" 1 ≠
      some (OfferedTool.ofListing "search" (Client.inexact.listing "search")) := by
    decide +kernel
  have model : ((Work.stepRead "c" rereadOnce listedOnce.situation).resumed
      Client.inexact.answering).calls?.map (·.1) = some "m" := by
    decide +kernel
  have declared : (rereadOnce.keptListing "search" 1).map
      (fun tools => (ListedTool.declareAll (tools.map (·.definition))).toOption) =
      some (((Work.stepRead "c" rereadOnce listedOnce.situation).resumed
        Client.inexact.answering).calls?.map (·.2)) := by
    decide +kernel
  obtain ⟨⟨_, specs⟩, calls, rfl⟩ := Option.map_eq_some_iff.1 model
  rw [kept, calls] at declared
  rw [asks] at calls
  obtain ⟨s, messages, later, goesOn⟩ := Work.eq_ask_of_calls calls
  have other : tools ≠ OfferedTool.ofListing "search" (Client.inexact.listing "search") :=
    fun same => different (kept.trans (congrArg some same))
  have specified : ListedTool.declareAll (tools.map (·.definition)) = .ok specs := by
    cases result : ListedTool.declareAll (tools.map (·.definition)) with
    | error f => simp [result, Except.toOption] at declared
    | ok specs' => simpa [result, Except.toOption] using declared
  exact ⟨history, _, now, rereadOnce, tools, resume, s, messages, specs, later, stepped.unfolds,
    stepped.answers, rereadOnce_found, kept, other, goesOn, specified⟩

end DialogueEngine
