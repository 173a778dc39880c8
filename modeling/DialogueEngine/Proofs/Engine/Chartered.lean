import DialogueEngine.Proofs.Engine.Charter
import DialogueEngine.Proofs.Engine.Operation

/-!
Operations under a charter. What an operation reads at its beginning satisfies the charter of its
conversation; it then keeps to the charter to its end, whether it has found the conversation free or
is refused.
-/

namespace DialogueEngine

open Situation (Confines Idle)

namespace Engine

variable {α β : Type} {ch : Charter} {past : List Exchange} {since s : Situation}
  {c : Conversation} {found : Except Failure (Option Conversation)}

/-- What goes on holding while more is asked and answered. -/
def Lasts (post : List Exchange → α → Prop) : Prop :=
  ∀ past past' a, past <+: past' → post past a → post past' a

/-- A result that is no failure brings a conversation that satisfies the charter. -/
abbrev Brings (ch : Charter) (f : α → Conversation) (past : List Exchange)
    (result : Except Failure α) : Prop :=
  Given (fun a => ch.keeps past (f a)) result

theorem lasts_brings (f : α → Conversation) : Lasts (Brings ch f) :=
  fun _ _ _ grown given a same => ch.later (given a same) grown

theorem lasts_true : Lasts fun _ (_ : α) => True := fun _ _ _ _ _ => trivial

/-- A computation keeps to a charter where reading the conversation comes to `found`. -/
def Undertakes (ch : Charter) (past : List Exchange) (found : Except Failure (Option Conversation))
    (x : Engine α) (post : List Exchange → α → Prop) : Prop :=
  ∀ since s, ch.Stands past since s → s.store.backing.get ch.id = found →
    Keeping ch post past since (x s)

namespace Undertakes

theorem of_complies {x : Engine α} {post : List Exchange → α → Prop}
    (complies : Complies ch past x post) : Undertakes ch past found x post :=
  fun since s stands _ => complies since s stands

theorem pure {a : α} {post : List Exchange → α → Prop} (holds : post past a) :
    Undertakes ch past found (Pure.pure a : Engine α) post :=
  .of_complies (.pure holds)

theorem bind {x : Engine α} {f : α → Engine β} {mid : List Exchange → α → Prop}
    {post : List Exchange → β → Prop} (first : Undertakes ch past found x mid)
    (later : ∀ past' a, past <+: past' → mid past' a → Complies ch past' (f a) post) :
    Undertakes ch past found (x >>= f) post := by
  intro since s stands reads
  apply Activity.chronicles_bind (first since s stands reads).grows
  rintro past' since' a s' ⟨grown, stands', holds⟩
  exact later past' a grown holds since' s' stands'

/-- What comes first ends at once and leaves alone what is stored. -/
theorem after {x : Engine α} {f : α → Engine β} {mid : α → Prop}
    {post : List Exchange → β → Prop}
    (first : ∀ s, s.store.backing.get ch.id = found → (x s).Ends fun a s' =>
      Confines ch.id (ch.keeps past) s s' ∧ s'.store.backing = s.store.backing ∧ mid a)
    (later : ∀ a, mid a → Undertakes ch past found (f a) post) :
    Undertakes ch past found (x >>= f) post := by
  intro since s stands reads
  obtain ⟨s', a, done, confines, same, holds⟩ := (first s reads).eq_done
  rw [Activity.bind_of_done done]
  exact later a holds since s' (stands.next confines) (by rw [same]; exact reads)

/-- What comes first only looks. -/
theorem looking {x : Engine α} {f : α → Engine β} {mid : α → Prop}
    {post : List Exchange → β → Prop}
    (first : ∀ s, s.store.backing.get ch.id = found → (x s).Ends fun a s' => Idle s s' ∧ mid a)
    (later : ∀ a, mid a → Undertakes ch past found (f a) post) :
    Undertakes ch past found (x >>= f) post :=
  .after (fun s reads => (first s reads).mono (fun _ asked => asked)
    fun _ _ holds => ⟨.of_idle holds.1, holds.1.backing, holds.2⟩) later

end Undertakes

/-! ## Claiming and reading -/

/-- The claim is given back at the end, which changes nothing about the result. -/
theorem complies_released {post : List Exchange → α → Prop} (lasts : Lasts post) {a : α}
    (holds : post past a) : Complies ch past (do release ch.id; return a) post :=
  complies_release.bind fun past' _ grown _ => .pure (lasts past past' a grown holds)

/-- Where the conversation is claimed by others the work on it is refused. -/
theorem undertakes_claiming {body : Engine (Except Failure α)}
    {post : List Exchange → Except Failure α → Prop} (lasts : Lasts post)
    (refused : ∀ f, post past (.error f)) (works : Undertakes ch past found body post) :
    Undertakes ch past found (claiming ch.id body) post := by
  have claims (s : Situation) : (tryClaim ch.id s).Ends fun _ s' =>
      Confines ch.id (ch.keeps past) s s' ∧ s'.store.backing = s.store.backing ∧ True := by
    by_cases busy : ch.id ∈ s.claimed
    · rw [tryClaim_busy busy]
      exact ⟨.refl s, rfl, trivial⟩
    · rw [tryClaim_free busy]
      exact ⟨.claiming ch.id s, rfl, trivial⟩
  refine .after (fun s _ => claims s) fun free _ => ?_
  split
  · exact works.bind fun _ _ _ holds => complies_released lasts holds
  · exact .pure (refused _)

theorem read_ends_idle (id : String) (s : Situation) : (read id s).Ends fun found s' =>
    Idle s s' ∧ ∀ kept, found = .ok kept → s.store.backing.get id = .ok kept :=
  ⟨⟨rfl, rfl, Store.backing_get id s.store, rfl, rfl, rfl⟩, fun _ => Store.get_eq_backing⟩

theorem load_ends_idle (id : String) (s : Situation) : (load id s).Ends fun loaded s' =>
    Idle s s' ∧ ∀ c, loaded = .ok c → s.store.backing.get id = .ok (some c) := by
  apply Activity.meets_bind (read_ends_idle id s)
  rintro found s' ⟨idle, given⟩
  split
  · exact ⟨idle, fun c same => by cases same⟩
  · exact ⟨idle, fun c same => by cases same⟩
  · refine ⟨idle, fun c same => ?_⟩
    cases same
    exact given _ rfl

/-- The conversation is claimed and loaded, worked on and released. -/
theorem undertakes_claiming_load {rest : Conversation → Engine (Except Failure α)}
    {post : List Exchange → Except Failure α → Prop} (lasts : Lasts post)
    (refused : ∀ f, post past (.error f))
    (works : ∀ c, found = .ok (some c) → Complies ch past (rest c) post) :
    Undertakes ch past found (claiming ch.id do
      match ← load ch.id with
      | .error f => return .error f
      | .ok c => rest c) post := by
  have loads (s : Situation) (reads : s.store.backing.get ch.id = found) :
      (load ch.id s).Ends fun loaded s' =>
        Idle s s' ∧ ∀ c, loaded = .ok c → found = .ok (some c) := reads ▸ load_ends_idle ch.id s
  refine undertakes_claiming lasts refused (.looking loads fun loaded given => ?_)
  split
  · exact .pure (refused _)
  · next c => exact .of_complies (works c (given c rfl))

theorem trace_ends_idle (id : String) (s : Situation) :
    (trace id s).Ends fun _ s' => Idle s s' ∧ True := by
  apply Activity.meets_bind (load_ends_idle id s)
  intro loaded s' holds
  split <;> exact ⟨holds.1, trivial⟩

theorem cursor_ends_idle (id : String) (size : Nat) (s : Situation) :
    (cursor id size s).Ends fun _ s' => Idle s s' ∧ True := by
  unfold cursor
  split <;> exact ⟨.refl s, trivial⟩

/-! ## Operations -/

theorem complies_save (kept : ch.keeps past c) : Complies ch past (save c) (Brings ch id) := by
  apply (complies_write kept).bind
  intro _ written grown _
  split
  · exact .pure (.error _)
  · exact .pure (.ok (ch.later kept grown))

theorem complies_stepWith (kept : ch.keeps past c) :
    Complies ch past (stepWith c) fun past o => ch.keeps past o.conversation := by
  have refused {past' : List Exchange} (grown : past <+: past') (f : Failure) :
      ch.keeps past' { c with lastError := some (.ofFailure f) } :=
    ch.amends (ch.later kept grown) (.refused f) rfl
  have claims : Complies ch past (tryClaim c.id) fun _ _ => True := by
    rw [ch.named kept]
    exact complies_tryClaim
  have released {past' : List Exchange} {o : StepResult} (kept' : ch.keeps past' o.conversation) :
      Complies ch past' (do release c.id; return o) fun past o => ch.keeps past o.conversation := by
    have lasts : Lasts fun past (o : StepResult) => ch.keeps past o.conversation :=
      fun _ _ _ grown kept => ch.later kept grown
    rw [ch.named kept]
    exact complies_released lasts kept'
  unfold stepWith
  dsimp only
  split
  · exact .pure (refused List.prefix_rfl _)
  · apply claims.bind
    intro _ free grown _
    split
    · exact (complies_advance (ch.later kept grown)).bind fun _ _ _ kept => released kept
    · exact .pure (refused grown _)

theorem complies_parkCancel : Complies ch past (parkCancel ch.id) fun _ _ => True := by
  refine .of_ends fun s _ => ⟨?_, trivial⟩
  change Confines ch.id (ch.keeps past) s (if s.cancelRequests.contains ch.id then s
    else { s with cancelRequests := ch.id :: s.cancelRequests })
  split
  · exact .refl s
  · exact .requesting fun other different => by simp [different]

/-! ## Decisions -/

theorem complies_ask {q : Question} (asks : ch.asks past q) :
    Complies ch past (ask q) fun _ _ => True :=
  fun _ _ stands => ⟨stands.confines, asks, fun _ _ law => ⟨.begin law, trivial⟩⟩

theorem complies_invoke (approved : ch.approves) (conversation : String) (call : ToolCall) :
    Complies ch past (invoke conversation call) fun _ _ => True := by
  unfold invoke
  split
  · exact .pure trivial
  · split
    · exact .pure trivial
    · apply (complies_publish _).bind
      intro past₁ _ _ _
      apply (complies_ask (ch.approving approved rfl)).bind
      intro past₂ answer _ _
      exact (complies_publish _).bind fun _ _ _ _ => .pure trivial

theorem complies_decide (call : ToolCall) {decision : Decision}
    (may : decision = .approve → ch.approves) :
    Complies ch past (decide c call decision) fun _ _ => True := by
  cases decision with
  | approve =>
    apply (complies_invoke (may rfl) c.id call).bind
    intro _ outcome _ _
    split <;> exact .pure trivial
  | reject reason => exact complies_situation.bind fun _ _ _ _ => .pure trivial

/-! ## Cursors -/

theorem complies_setCursor (place : Nat) :
    Complies ch past (setCursor ch.id place) fun _ _ => True :=
  .of_ends fun s _ => ⟨.placing fun other different => by
    rw [Table.get?_insert, if_neg different.symm], trivial⟩

theorem dropCursor_ends_confined (P : Conversation → Prop) (id : String) (s : Situation) :
    (dropCursor id s).Ends fun _ s' => Confines id P s s' ∧
      s'.store.backing = s.store.backing ∧ True :=
  ⟨.placing fun other different => by simp [Table.get?_erase, different.symm], rfl, trivial⟩

theorem complies_dropCursor : Complies ch past (dropCursor ch.id) fun _ _ => True :=
  .of_ends fun s _ => (dropCursor_ends_confined _ ch.id s).mono (fun _ asked => asked)
    fun _ _ holds => ⟨holds.1, trivial⟩

theorem undertakes_currentRecord (id : String) :
    Undertakes ch past found (currentRecord id) fun _ _ => True := by
  refine .looking (fun s _ => trace_ends_idle id s) fun records _ => ?_
  split
  · exact .pure trivial
  · refine .looking (fun s _ => cursor_ends_idle id _ s) fun place _ => ?_
    split <;> exact .pure trivial

theorem undertakes_goBack : Undertakes ch past found (goBack ch.id) fun _ _ => True := by
  refine .looking (fun s _ => trace_ends_idle ch.id s) fun records _ => ?_
  split
  · exact .pure trivial
  · refine .looking (fun s _ => cursor_ends_idle ch.id _ s) fun place _ => ?_
    split
    · exact .pure trivial
    · exact .of_complies ((complies_setCursor _).bind fun _ _ _ _ => .pure trivial)

/-! ## Operations on a stored conversation -/

section Reading

variable (reads : ∀ c, found = .ok (some c) → ch.keeps past c)
include reads

theorem undertakes_step :
    Undertakes ch past found (step ch.id) (Brings ch StepResult.conversation) :=
  undertakes_claiming_load (lasts_brings _) (fun f => .error f) fun c read =>
    (complies_advance (reads c read)).bind fun _ _ _ kept => .pure (.ok kept)

theorem undertakes_run (most : Nat) :
    Undertakes ch past found (run ch.id most) (Brings ch StepResult.conversation) :=
  undertakes_claiming_load (lasts_brings _) (fun f => .error f) fun c read =>
    (complies_advance (reads c read)).bind fun _ _ _ kept =>
      (complies_keepGoing _ kept).bind fun _ _ _ kept => .pure (.ok kept)

theorem undertakes_post (text : String) :
    Undertakes ch past found (post ch.id text) (Brings ch id) := by
  refine undertakes_claiming_load (lasts_brings _) (fun f => .error f) fun c read => ?_
  split
  · exact .pure (.error _)
  split
  · exact .pure (.error _)
  apply complies_stamp.bind
  intro past₁ t grown _
  have kept₁ := ch.later (reads c read) grown
  dsimp only
  split
  · next needed =>
    apply (complies_graph c.flow).bind
    intro past₂ found grown₂ known
    split
    · exact .pure (.error _)
    · next g =>
      obtain ⟨s₀, law, found⟩ := known
      exact complies_save (ch.rewinds (ch.later kept₁ grown₂) law found rfl t.instant needed)
  · exact complies_save (ch.amends kept₁ (.posted rfl t.instant) (Conversation.reopen_next _))

theorem undertakes_setRecording (enabled : Bool) :
    Undertakes ch past found (setRecording ch.id enabled) (Brings ch id) :=
  undertakes_claiming_load (lasts_brings _) (fun f => .error f) fun c read =>
    complies_now.bind fun _ now grown _ =>
      complies_save (ch.amends (ch.later (reads c read) grown) (.recording enabled now) rfl)

theorem undertakes_cancel : Undertakes ch past found (cancel ch.id) fun _ _ => True := by
  intro since s stands stored
  by_cases busy : ch.id ∈ s.claimed
  · unfold cancel
    rw [Activity.bind_of_done (tryClaim_busy busy)]
    exact (complies_parkCancel.bind fun _ _ _ _ => .pure trivial) since s stands
  · rw [cancel_free busy]
    refine undertakes_claiming_load lasts_true (fun _ => trivial) (fun c read => ?_) since s stands
      stored
    exact complies_now.bind fun _ now grown _ =>
      complies_write (ch.amends (ch.later (reads c read) grown) (.cancelled now) rfl)

theorem undertakes_resolve (call : String) {decision : Decision}
    (may : decision = .approve → ch.approves) :
    Undertakes ch past found (resolve ch.id call decision) (Brings ch id) := by
  refine undertakes_claiming_load (lasts_brings _) (fun f => .error f) fun c read => ?_
  apply complies_now.bind
  intro past₁ now grown₁ _
  split
  · exact .pure (.error _)
  next taken rest taking =>
  apply (complies_decide taken may).bind
  intro past₂ result grown₂ _
  apply complies_stamp.bind
  intro past₃ t grown₃ _
  have kept₃ := ch.later (reads c read) (grown₁.trans (grown₂.trans grown₃))
  have answered (m : Message) : Complies ch past₃
      (telling (rest.push m t.instant) taken.id (decision = .approve)) (Brings ch id) := by
    have goesOn : rest.next = c.next := Conversation.takeCall_next taking
    have kept : ch.keeps past₃ (rest.push m t.instant) :=
      ch.amends kept₃ (.resolved taking m t.instant) goesOn
    apply (complies_write kept).bind
    intro _ written grown₄ _
    split
    · exact .pure (.error _)
    · exact (complies_publish _).bind fun _ _ grown₅ _ =>
        .pure (.ok (ch.later kept (grown₄.trans grown₅)))
  dsimp only
  split
  · exact answered _
  · exact answered _

theorem undertakes_resumeTrace :
    Undertakes ch past found (resumeTrace ch.id) (Brings ch id) :=
  .after (fun s _ => dropCursor_ends_confined _ ch.id s)
    fun _ _ => undertakes_setRecording reads false

theorem undertakes_stepBeyond (recorded : Nat) :
    Undertakes ch past found (stepBeyond ch.id recorded) fun _ _ => True := by
  refine (undertakes_step reads).bind fun past' outcome _ _ => ?_
  split
  · exact .pure trivial
  · exact complies_dropCursor.bind fun _ _ _ _ => .pure trivial

theorem undertakes_goForward :
    Undertakes ch past found (goForward ch.id) fun _ _ => True := by
  refine .looking (fun s _ => trace_ends_idle ch.id s) fun records _ => ?_
  split
  · exact .pure trivial
  · refine .looking (fun s _ => cursor_ends_idle ch.id _ s) fun place _ => ?_
    split
    · exact undertakes_stepBeyond reads _
    · split
      · exact .of_complies ((complies_setCursor _).bind fun _ _ _ _ => .pure trivial)
      · exact undertakes_stepBeyond reads _

end Reading

/-! ## New conversations -/

theorem graph_ends_known (flow : String) (s : Situation) : (graph flow s).Ends fun found s' =>
    s' = s ∧ ∀ g, found = .ok g → s.flows.get? flow = some g := by
  have looks : (situation s).Ends fun seen s' => s' = s ∧ seen = s := ⟨rfl, rfl⟩
  apply Activity.meets_bind looks
  rintro seen s' ⟨rfl, rfl⟩
  cases kept : seen.flows.get? flow with
  | none => exact ⟨rfl, fun g same => by cases same⟩
  | some g' =>
    refine ⟨rfl, fun g same => ?_⟩
    cases same
    rfl

/-- What is new is kept as it is begun, with or without a greeting. -/
theorem start_keeping {chosen : Option String} {flow : String} {message : Option String}
    (named : chosen.getD s.clock.tick.1.id = ch.id) (stands : ch.Stands past since s)
    (fresh : s.store.backing.get ch.id = .ok none → ∀ g, s.flows.get? flow = some g →
      ∀ now debugMode, ch.keeps past { Conversation.fresh ch.id flow now with debugMode }) :
    Keeping ch (Brings ch id) past since (start chosen flow message s) := by
  obtain ⟨s₁, found, done, same, known⟩ := (graph_ends_known flow s).eq_done
  subst same
  unfold start
  rw [Activity.bind_of_done done]
  split
  · exact ⟨stands, .error _⟩
  next g =>
  extract_lets begins
  have begin : Undertakes ch past (s₁.store.backing.get ch.id) (begins ch.id) (Brings ch id) := by
    dsimp only [begins]
    split
    · exact .pure (.error _)
    have looks (s : Situation) (same : s.store.backing.get ch.id = s₁.store.backing.get ch.id) :
        (read ch.id s).Ends fun kept s' => Idle s s' ∧
          ∀ o, kept = .ok o → s₁.store.backing.get ch.id = .ok o := same ▸ read_ends_idle ch.id s
    refine undertakes_claiming (lasts_brings _) (fun f => .error f)
      (.looking looks fun kept read => ?_)
    split
    · exact .pure (.error _)
    · exact .pure (.error _)
    have new (now : Instant) (debugMode : Bool) :=
      fresh (read none rfl) g (known g rfl) now debugMode
    refine .of_complies (complies_situation.bind fun past₁ seen grown₁ _ => ?_)
    apply complies_now.bind
    intro past₂ now grown₂ _
    have kept := ch.later (new now seen.settings.engine.defaultDebugMode) (grown₁.trans grown₂)
    split
    · exact complies_save kept
    · apply complies_stamp.bind
      intro past₃ t grown₃ _
      exact complies_save (ch.amends (ch.later kept grown₃) (.posted rfl t.instant) rfl)
  clear_value begins
  cases chosen with
  | some id =>
    obtain rfl : id = ch.id := named
    exact begin since _ stands rfl
  | none =>
    have own : s₁.clock.tick.1.id = ch.id := named
    have begin' : Undertakes ch past (s₁.store.backing.get ch.id) (begins s₁.clock.tick.1.id)
        (Brings ch id) := by
      rw [own]
      exact begin
    have ticked : Idle s₁ { s₁ with clock := s₁.clock.tick.2 } := ⟨rfl, rfl, rfl, rfl, rfl, rfl⟩
    exact begin' since _ (stands.idle ticked) rfl

end Engine

/-! ## Undertakings -/

namespace Undertaking

/-- What a charter has to say of an undertaking where it is begun. -/
def Begins (ch : Charter) (s : Situation) : Undertaking → Prop
  | .operation (.start _ flow _) => s.store.backing.get ch.id = .ok none →
      ∀ g, s.flows.get? flow = some g → ∀ now debugMode,
        ch.keeps [] { Conversation.fresh ch.id flow now with debugMode }
  | .stepWith c => ch.keeps [] c
  | .operation _ | .registration _ =>
    ∀ c, s.store.backing.get ch.id = .ok (some c) → ch.keeps [] c

/-- What registering a flow makes of a situation. -/
def registering (f : AuthoredFlow) (s : Situation) : Situation :=
  match f.toGraph with
  | .error _ => s
  | .ok g => { s with flows := s.flows.insert f.id g }

theorem registering_of_perform {f : AuthoredFlow} {s s' : Situation} {reply : Reply}
    (done : (Undertaking.registration f).perform s = .done s' reply) : s' = registering f s := by
  have registers : (Engine.register f s).Ends fun _ s' => s' = registering f s := by
    unfold Engine.register registering
    cases f.toGraph <;> rfl
  have performs : ((Undertaking.registration f).perform s).Ends fun _ s' => s' = registering f s :=
    Activity.meets_bind registers fun _ _ same => same
  rw [done] at performs
  exact performs

theorem registering_gives {f : AuthoredFlow} {s s' : Situation} {outcome : Operation.Outcome}
    (done : (Undertaking.registration f).perform s = .done s' (.ok outcome)) :
    outcome.conversation? = none := by
  have registers : (Engine.register f s).Ends fun _ _ => True := by
    unfold Engine.register
    cases f.toGraph <;> exact trivial
  have performs : ((Undertaking.registration f).perform s).Ends fun reply _ =>
      ∀ outcome, reply = .ok outcome → outcome.conversation? = none := by
    apply Activity.meets_bind registers
    rintro result _ - outcome replied
    cases result with
    | error f => cases replied
    | ok g => cases replied; rfl
  rw [done] at performs
  exact performs outcome rfl

theorem registering_settings (f : AuthoredFlow) (s : Situation) :
    (registering f s).settings = s.settings := by
  unfold registering
  split <;> rfl

theorem registering_rests (f : AuthoredFlow) (s : Situation) (id : String) :
    Situation.Rests id s (registering f s) := by
  unfold registering
  split <;> exact ⟨rfl, .rfl, .rfl, rfl⟩

/-- A conversation that a reply gives back satisfies the charter. -/
def Returns (ch : Charter) (past : List Exchange) (reply : Reply) : Prop :=
  ∀ outcome c, reply = .ok outcome → outcome.conversation? = some c → ch.keeps past c

section Replies

variable {α : Type} {ch : Charter} {s : Situation} {x : Engine (Except Failure α)}
  {f : α → Operation.Outcome} (law : ch.law s)
include law

/-- What is replied gives back no conversation but what work under a charter comes to. -/
theorem keeping_reply {post : List Exchange → Except Failure α → Prop}
    (undertakes : Engine.Undertakes ch [] (s.store.backing.get ch.id) x post)
    (gives : ∀ past a c, post past (.ok a) → (f a).conversation? = some c → ch.keeps past c) :
    Engine.Keeping ch (Returns ch) [] s ((do return (← x).map f : Engine Reply) s) := by
  refine undertakes.bind (fun past result _ holds => .pure fun outcome c replied given => ?_)
    s s (.begin law) rfl
  cases result with
  | error f => cases replied
  | ok a =>
    cases replied
    exact gives past a c holds given

theorem keeping_brought {g : α → Conversation}
    (undertakes : Engine.Undertakes ch [] (s.store.backing.get ch.id) x (Engine.Brings ch g))
    (same : ∀ a, (f a).conversation? = some (g a)) :
    Engine.Keeping ch (Returns ch) [] s ((do return (← x).map f : Engine Reply) s) := by
  refine keeping_reply law undertakes fun past a c holds given => ?_
  obtain rfl : g a = c := Option.some.inj ((same a).symm.trans given)
  exact holds a rfl

theorem keeping_silent
    (undertakes : Engine.Undertakes ch [] (s.store.backing.get ch.id) x fun _ _ => True)
    (none : ∀ a, (f a).conversation? = none) :
    Engine.Keeping ch (Returns ch) [] s ((do return (← x).map f : Engine Reply) s) :=
  keeping_reply law undertakes fun _ a _ _ given => by rw [none a] at given; cases given

end Replies

/-- Whatever is undertaken about a conversation keeps to a charter of it. -/
theorem perform_keeping {u : Undertaking} {ch : Charter} {s : Situation}
    (subject : u.subject s = some ch.id) (law : ch.law s) (begins : u.Begins ch s)
    (approves : u.Approves → ch.approves) :
    Engine.Keeping ch (Returns ch) [] s (u.perform s) := by
  cases u with
  | registration flow => cases subject
  | stepWith c =>
    refine (Engine.complies_stepWith begins).bind (fun past o _ kept => .pure ?_) s s (.begin law)
    intro outcome c' replied given
    cases replied
    cases given
    exact kept
  | operation op =>
    cases op with
    | start chosen flow message =>
      apply Activity.chronicles_bind
        (Engine.start_keeping (Option.some.inj subject) (.begin law) begins)
      rintro past since reply s' ⟨stands', kept⟩
      refine ⟨stands', fun outcome c replied given => ?_⟩
      cases reply with
      | error f => cases replied
      | ok c' =>
        cases replied
        cases given
        exact kept c rfl
    | post id text =>
      obtain rfl : id = ch.id := Option.some.inj subject
      exact keeping_brought law (Engine.undertakes_post begins text) fun _ => rfl
    | step id =>
      obtain rfl : id = ch.id := Option.some.inj subject
      exact keeping_brought law (Engine.undertakes_step begins) fun _ => rfl
    | run id most =>
      obtain rfl : id = ch.id := Option.some.inj subject
      exact keeping_brought law (Engine.undertakes_run begins most) fun _ => rfl
    | cancel id =>
      obtain rfl : id = ch.id := Option.some.inj subject
      exact keeping_silent law (Engine.undertakes_cancel begins) fun _ => rfl
    | setRecording id enabled =>
      obtain rfl : id = ch.id := Option.some.inj subject
      exact keeping_brought law (Engine.undertakes_setRecording begins enabled) fun _ => rfl
    | resolve id call decision =>
      obtain rfl : id = ch.id := Option.some.inj subject
      refine keeping_brought law (Engine.undertakes_resolve begins call ?_) fun _ => rfl
      rintro rfl
      exact approves ⟨ch.id, call, rfl⟩
    | enableTrace id =>
      obtain rfl : id = ch.id := Option.some.inj subject
      exact keeping_brought law (Engine.undertakes_setRecording begins true) fun _ => rfl
    | resumeTrace id =>
      obtain rfl : id = ch.id := Option.some.inj subject
      exact keeping_brought law (Engine.undertakes_resumeTrace begins) fun _ => rfl
    | currentRecord id => exact keeping_silent law (Engine.undertakes_currentRecord id) fun _ => rfl
    | goBack id =>
      obtain rfl : id = ch.id := Option.some.inj subject
      exact keeping_silent law Engine.undertakes_goBack fun _ => rfl
    | goForward id =>
      obtain rfl : id = ch.id := Option.some.inj subject
      exact keeping_silent law (Engine.undertakes_goForward begins) fun _ => rfl

end Undertaking

end DialogueEngine
