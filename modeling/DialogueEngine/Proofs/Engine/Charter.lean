import DialogueEngine.Proofs.Engine.Confinement
import DialogueEngine.Proofs.Engine.Offer
import DialogueEngine.Proofs.Engine.Undertaking
import DialogueEngine.Proofs.Interaction.Chronicle

/-!
What operations make of the one conversation that they are about. A charter says what is kept true
of it, which may depend on what has been asked and answered; what others have to leave alone; and
what may be asked. Whoever shows that the changes of a conversation and the visits of its nodes keep
to a charter has shown that every operation does: it reads what satisfies the charter, each
conversation that it writes satisfies it again, and nothing else changes.
-/

namespace DialogueEngine

open Engine (Keeps)
open Situation (Confines Idle)

namespace Conversation

/-- What an operation may make of a conversation without running a node. -/
inductive Amends (c : Conversation) : Conversation → Prop
  | cancelled (now : Instant) : Amends c ({ c with cancelled := true }.touch now)
  | recording (enabled : Bool) (now : Instant) : Amends c (c.withRecording enabled now)
  | posted {m : Message} (role : m.role = .user) (now : Instant) : Amends c (c.push m now).reopen
  | resolved {call : String} {taken : ToolCall} {rest : Conversation} {now : Instant}
      (found : c.takeCall call now = some (taken, rest)) (m : Message) (later : Instant) :
      Amends c (rest.push m later)
  | givenUp (f : Failure) (now : Instant) : Amends c (c.giveUp f now)
  | refused (f : Failure) : Amends c { c with lastError := some (.ofFailure f) }

theorem reopen_next (c : Conversation) : c.reopen.next = c.next := by
  unfold reopen
  split <;> rfl

theorem takeCall_next {c rest : Conversation} {call : String} {taken : ToolCall} {now : Instant}
    (found : c.takeCall call now = some (taken, rest)) : rest.next = c.next := by
  obtain ⟨others, -, rfl⟩ := takeCall_spec found
  rfl

/-- What the run of a node gives satisfies a condition, whatever is noted of the step then. -/
def Arrives (P : Conversation → Prop) (node : Node) : Conversation × Except Failure Visit → Prop
  | (c, .ok run) => ∀ cancel before noted now,
      P ((c.arrive node cancel).conclude node run before noted now)
  | (c, .error f) => ∀ cancel before noted,
      P ((c.arrive node cancel).noteFailure node before f noted)

theorem Arrives.mono {P P' : Conversation → Prop} {node : Node}
    {result : Conversation × Except Failure Visit} (arrives : Arrives P node result)
    (more : ∀ c, P c → P' c) : Arrives P' node result := by
  obtain ⟨c, result⟩ := result
  cases result with
  | ok run => exact fun cancel before noted now => more _ (arrives cancel before noted now)
  | error f => exact fun cancel before noted => more _ (arrives cancel before noted)

theorem Arrives.and {P P' : Conversation → Prop} {node : Node}
    {result : Conversation × Except Failure Visit} (arrives : Arrives P node result)
    (also : Arrives P' node result) : Arrives (fun c => P c ∧ P' c) node result := by
  obtain ⟨c, result⟩ := result
  cases result with
  | ok run => exact fun cancel before noted now =>
      ⟨arrives cancel before noted now, also cancel before noted now⟩
  | error f => exact fun cancel before noted =>
      ⟨arrives cancel before noted, also cancel before noted⟩

/-- A condition holds of a conversation, and still holds if a step with it is given up. -/
def Outlasts (P : Conversation → Prop) (c : Conversation) : Prop :=
  P c ∧ ∀ f now, P (c.giveUp f now)

theorem Outlasts.of_amends {P : Conversation → Prop} {c : Conversation}
    (amends : ∀ c', P c → c.Amends c' → P c') (holds : P c) : Outlasts P c :=
  ⟨holds, fun f now => amends _ holds (.givenUp f now)⟩

end Conversation

/-- What is kept true of a conversation while an operation works on it, after the exchanges so far.
Others keep to the law meanwhile, and the operation asks what it may. -/
structure Charter where
  id : String
  law : Situation → Prop
  keeps : List Exchange → Conversation → Prop
  asks : List Exchange → Question → Prop
  /-- Whether tools may be run on approval. -/
  approves : Prop
  named {past : List Exchange} {c : Conversation} (kept : keeps past c) : c.id = id
  lawful {s s' : Situation} (holds : law s) (settings : s'.settings = s.settings)
    (flows : s'.flows = s.flows) : law s'
  later {past past' : List Exchange} {c : Conversation} (kept : keeps past c)
    (grown : past <+: past') : keeps past' c
  amends {past : List Exchange} {c c' : Conversation} (kept : keeps past c)
    (amended : c.Amends c') (goesOn : c'.next = c.next) : keeps past c'
  /-- Where the flow of a conversation is missing, a step with it is given up. -/
  lost {past : List Exchange} {c : Conversation} {s : Situation} (kept : keeps past c)
    (holds : law s) (missing : s.flows.get? c.flow = none) (f : Failure) (now : Instant) :
    keeps past (c.giveUp f now)
  rewinds {past : List Exchange} {c : Conversation} {s : Situation} {g : Graph} {m : Message}
    (kept : keeps past c) (holds : law s) (found : s.flows.get? c.flow = some g)
    (role : m.role = .user) (now : Instant) (needed : (c.push m now).needsRewind = true) :
    keeps past ((c.push m now).rewind g).reopen
  visits {past : List Exchange} {c : Conversation} {s₀ s : Situation} {g : Graph}
    (kept : keeps past c) (ready : c.Ready) (known : law s₀)
    (found : s₀.flows.get? c.flow = some g) (holds : law s) :
    (Engine.visit (g.nodeAt (c.next <|> c.current)) c.leavePause s).Follows law asks
      (fun past' result _ => Conversation.Arrives (Conversation.Outlasts (keeps past'))
        (g.nodeAt (c.next <|> c.current)) result) past
  approving {past : List Exchange} {q : Question} (approved : approves) (runs : q.isRun = true) :
    asks past q

namespace Charter

variable {ch : Charter} {past : List Exchange} {since s s' : Situation}

/-- How things stand within a stretch that began `since`. -/
structure Stands (ch : Charter) (past : List Exchange) (since s : Situation) : Prop where
  confines : Confines ch.id (ch.keeps past) since s
  law : ch.law s

theorem Stands.begin (law : ch.law s) : ch.Stands past s s := ⟨.refl s, law⟩

theorem Stands.next (stands : ch.Stands past since s)
    (confines : Confines ch.id (ch.keeps past) s s') :
    ch.Stands past since s' where
  confines := stands.confines.trans confines fun _ kept => kept
  law := ch.lawful stands.law confines.settings confines.flows

theorem Stands.idle (stands : ch.Stands past since s) (idle : Idle s s') :
    ch.Stands past since s' :=
  stands.next (.of_idle idle)

end Charter

namespace Engine

variable {α β : Type} {ch : Charter} {past : List Exchange} {since s : Situation}
  {c : Conversation}

/-- What is done from a situation keeps to a charter. -/
abbrev Keeping (ch : Charter) (post : List Exchange → α → Prop) (past : List Exchange)
    (since : Situation) (x : Interaction Situation Question Answer α) : Prop :=
  x.Chronicles (fun _ s => ch.law s) (fun past => Confines ch.id (ch.keeps past)) ch.asks
    (fun past since a s => ch.Stands past since s ∧ post past a) past since

/-- Within each stretch nothing changes but events and the clock, and where it is resumed the law
holds again. -/
theorem keeping_of_stays {post : List Exchange → α → Prop} {s₁ : Situation}
    {x : Interaction Situation Question Answer α} (stands : ch.Stands past since s₁)
    (stays : x.Abides (fun _ _ => True) Idle (fun _ _ => True) (fun since _ s => Idle since s) s₁)
    (follows : x.Follows ch.law ch.asks (fun past a _ => post past a) past) :
    Keeping ch post past since x := by
  induction x generalizing past since s₁ with
  | done s a => exact ⟨stands.idle stays, follows⟩
  | ask s q resume ih =>
    obtain ⟨idle, -, goesOn⟩ := stays
    refine ⟨(stands.idle idle).confines, follows.1, fun answer s' law => ?_⟩
    exact ih answer s' (.begin law) (goesOn answer s' trivial) (follows.2 answer s' law)

/-- A computation keeps to a charter after some exchanges, and its value satisfies `post`. -/
def Complies (ch : Charter) (past : List Exchange) (x : Engine α)
    (post : List Exchange → α → Prop) : Prop :=
  ∀ since s, ch.Stands past since s → Keeping ch post past since (x s)

namespace Complies

theorem pure {a : α} {post : List Exchange → α → Prop} (holds : post past a) :
    Complies ch past (Pure.pure a) post :=
  fun _ _ stands => ⟨stands, holds⟩

theorem bind {x : Engine α} {f : α → Engine β} {mid : List Exchange → α → Prop}
    {post : List Exchange → β → Prop} (first : Complies ch past x mid)
    (later : ∀ past' a, past <+: past' → mid past' a → Complies ch past' (f a) post) :
    Complies ch past (x >>= f) post := by
  intro since s stands
  apply Activity.chronicles_bind (first since s stands).grows
  rintro past' since' a s' ⟨grown, stands', holds⟩
  exact later past' a grown holds since' s' stands'

/-- What ends at once and is confined to the conversation. -/
theorem of_ends {x : Engine α} {post : α → Prop}
    (ends : ∀ s, ch.law s → (x s).Ends fun a s' => Confines ch.id (ch.keeps past) s s' ∧ post a) :
    Complies ch past x fun _ => post :=
  fun _ s stands => (ends s stands.law).chronicles
    fun _ _ holds => ⟨stands.next holds.1, holds.2⟩

/-- What leaves alone all but events and the clock, and follows the rule for questions. -/
theorem of_stays {x : Engine α} {post : List Exchange → α → Prop} (stays : Stays Idle x)
    (follows : ∀ s, ch.law s →
      (x s).Follows ch.law ch.asks (fun past' a _ => post past' a) past) :
    Complies ch past x post :=
  fun _ s stands => keeping_of_stays stands (stays s s (.refl s)) (follows s stands.law)

end Complies

/-- The run of a node as a conversation that is ready gives one of the results that a node can. -/
theorem visit_follows {settings : Settings} {law : Situation → Prop} (ready : c.Ready)
    (same : ∀ s, law s → s.settings = settings) (node : Node) (holds : law s) :
    (visit node c.leavePause s).Follows law (fun _ _ => True)
      (fun _ result _ => Visits node c.leavePause result) past := by
  have orderly (s : Situation) (holds : law s) : (Regime.lenient settings False).Orderly s :=
    Regime.orderly_lenient (same s holds) False.elim
  have visits : Keeps (Regime.lenient settings False) True (visit node c.leavePause)
      (Visits node c.leavePause) := keeps_visit False.elim ⟨c, trivial, ready, rfl⟩
  exact ((visits s (orderly s holds)).follows orderly).mono (fun _ _ _ => trivial)
    fun _ _ _ holds => holds.2

/-! ## What operations are made of -/

theorem complies_publish (e : Event) : Complies ch past (publish e) fun _ _ => True :=
  .of_ends fun _ _ => ⟨.of_idle ⟨rfl, rfl, rfl, rfl, rfl, rfl⟩, trivial⟩

theorem complies_stamp : Complies ch past stamp fun _ _ => True :=
  .of_ends fun _ _ => ⟨.of_idle ⟨rfl, rfl, rfl, rfl, rfl, rfl⟩, trivial⟩

theorem complies_now : Complies ch past now fun _ _ => True :=
  complies_stamp.bind fun _ _ _ _ => .pure trivial

theorem complies_situation : Complies ch past situation fun _ s => ch.law s :=
  .of_ends fun s law => ⟨.refl s, law⟩

theorem complies_graph (flow : String) : Complies ch past (graph flow)
    fun _ found => ∃ s, ch.law s ∧ s.flows.get? flow = found.toOption := by
  apply complies_situation.bind
  intro past' s _ law
  split
  · next g found => exact .pure ⟨s, law, found⟩
  · next missing => exact .pure ⟨s, law, missing⟩

theorem complies_takeCancel (named : c.id = ch.id) :
    Complies ch past (takeCancel c.id) fun _ _ => True :=
  .of_ends fun s _ => ⟨.requesting fun other different => by simp [named, different], trivial⟩

theorem complies_tryClaim : Complies ch past (tryClaim ch.id) fun _ _ => True := by
  refine .of_ends fun s _ => ?_
  by_cases free : ch.id ∈ s.claimed
  · rw [tryClaim_busy free]
    exact ⟨.refl s, trivial⟩
  · rw [tryClaim_free free]
    exact ⟨.claiming ch.id s, trivial⟩

theorem complies_release : Complies ch past (release ch.id) fun _ _ => True :=
  .of_ends fun s _ => ⟨.releasing ch.id s, trivial⟩

theorem complies_write (kept : ch.keeps past c) : Complies ch past (write c) fun _ _ => True :=
  .of_ends fun s _ => ⟨.saving (ch.named kept) kept s, trivial⟩

/-! ## Steps -/

theorem complies_failStep {f : Failure} (kept : ∀ now, ch.keeps past (c.giveUp f now)) :
    Complies ch past (failStep c f) fun past o => ch.keeps past o.conversation := by
  apply complies_now.bind
  intro past₁ now grown _
  have given : ch.keeps past₁ (c.giveUp f now) := ch.later (kept now) grown
  apply (complies_write given).bind
  intro past₂ _ grown _
  exact (complies_publish _).bind fun past₃ _ grown' _ =>
    .pure (ch.later given (grown.trans grown'))

theorem complies_pickUpCancel (kept : ch.keeps past c) :
    Complies ch past (pickUpCancel c) fun past c' => ch.keeps past c' := by
  apply (complies_takeCancel (ch.named kept)).bind
  intro past₁ parked grown _
  have kept₁ := ch.later kept grown
  split
  · apply complies_now.bind
    intro past₂ now grown _
    have cancelled := ch.amends (ch.later kept₁ grown) (.cancelled now) rfl
    exact (complies_write cancelled).bind fun past₃ _ grown _ => .pure (ch.later cancelled grown)
  · exact .pure kept₁

theorem complies_completeStep {node : Node} {before : Option Json} {run : Visit}
    (kept : ∀ noted now,
      Conversation.Outlasts (ch.keeps past) (c.conclude node run before noted now)) :
    Complies ch past (completeStep node c before run)
      fun past o => ch.keeps past o.conversation := by
  have written {past' : List Exchange} (grown : past <+: past') (noted now : Instant) :
      Complies ch past' (concluding (c.conclude node run before noted now) node run)
        fun past o => ch.keeps past o.conversation := by
    obtain ⟨kept', given⟩ := kept noted now
    apply (complies_write (ch.later kept' grown)).bind
    intro past₁ result grown₁ _
    split
    · next f => exact complies_failStep fun later => ch.later (given f later) (grown.trans grown₁)
    · exact (complies_publish _).bind fun past₂ _ grown₂ _ =>
        .pure (ch.later kept' (grown.trans (grown₁.trans grown₂)))
  unfold completeStep
  cases before with
  | none => exact complies_now.bind fun _ now grown _ => written grown now now
  | some before =>
    exact complies_now.bind fun _ noted grown _ => complies_now.bind fun _ now grown' _ =>
      written (grown.trans grown') noted now

theorem complies_visit {g : Graph} (kept : ch.keeps past c) (ready : c.Ready)
    (known : ∃ s, ch.law s ∧ s.flows.get? c.flow = some g) :
    Complies ch past (visit (g.nodeAt (c.next <|> c.current)) c.leavePause) fun past result =>
      Conversation.Arrives (Conversation.Outlasts (ch.keeps past))
        (g.nodeAt (c.next <|> c.current)) result := by
  obtain ⟨s₀, law, found⟩ := known
  exact .of_stays (stays_visit Situation.still_idle _ _)
    fun s holds => ch.visits kept ready law found holds

theorem complies_stepNode {g : Graph} (kept : ch.keeps past c) (ready : c.Ready)
    (known : ∃ s, ch.law s ∧ s.flows.get? c.flow = some g) :
    Complies ch past (stepNode (g.nodeAt (c.next <|> c.current)) c)
      fun past o => ch.keeps past o.conversation := by
  unfold stepNode
  dsimp only
  apply (complies_publish _).bind
  intro past₁ _ grown₁ _
  apply (complies_visit (ch.later kept grown₁) ready known).bind
  rintro past₂ ⟨c', result⟩ grown₂ arrives
  cases result with
  | ok run =>
    have named : c'.id = ch.id := by simpa using ch.named (arrives false none default default).1
    apply (complies_takeCancel (c := { c' with current := _, steps := _ }) named).bind
    intro past₃ cancel grown₃ _
    refine complies_completeStep (c := c'.arrive _ cancel) fun noted now => ?_
    obtain ⟨kept', given⟩ := arrives cancel _ noted now
    exact ⟨ch.later kept' grown₃, fun f later => ch.later (given f later) grown₃⟩
  | error f =>
    have named : c'.id = ch.id := by simpa using ch.named (arrives false none default).1
    apply (complies_takeCancel (c := { c' with current := _, steps := _ }) named).bind
    intro past₃ cancel grown₃ _
    have given (before : Option Json) (noted now : Instant) :=
      ch.later ((arrives cancel before noted).2 f now) grown₃
    dsimp only
    split
    · exact complies_failStep (given none default)
    · exact complies_now.bind fun _ noted grown₄ _ =>
        complies_failStep fun now => ch.later (given (some _) noted now) grown₄

theorem complies_advance (kept : ch.keeps past c) :
    Complies ch past (advance c) fun past o => ch.keeps past o.conversation := by
  apply (complies_pickUpCancel kept).bind
  intro past₁ c _ kept
  split
  · exact .pure kept
  next awaiting =>
  split
  · exact .pure kept
  next completed =>
  split
  · exact .pure kept
  next cancelled =>
  have ready : c.Ready := ⟨awaiting, completed, by simpa using cancelled⟩
  apply (complies_graph c.flow).bind
  intro past₂ found grown known
  split
  · next f =>
    obtain ⟨s, law, missing⟩ := known
    exact complies_failStep (ch.lost (ch.later kept grown) law missing f)
  · next g => exact complies_stepNode (ch.later kept grown) ready known

theorem complies_keepGoing (budget : Nat) {o : StepResult} (kept : ch.keeps past o.conversation) :
    Complies ch past (keepGoing budget o) fun past o => ch.keeps past o.conversation := by
  induction budget generalizing o past with
  | zero => exact .pure kept
  | succ budget ih =>
    unfold keepGoing
    split
    · exact (complies_advance kept).bind fun _ o _ kept => ih kept
    · exact .pure kept

end Engine

end DialogueEngine
