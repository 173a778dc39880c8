import DialogueEngine.Proofs.Engine.Offer
import DialogueEngine.Proofs.Engine.Operation
import DialogueEngine.Proofs.Tool.Clients

/-!
Operations and the client of the tool providers. While an operation waits the client moves on; what
it answers is what it is at that moment. A conversation is watched: all the time what is stored of
it, and what the operations have of it at hand, is abreast of the client, and a listing is taken
from it only where it is the client's.
-/

namespace DialogueEngine

variable {id : String} {whole : Prop} {k k' : Client} {c c' : Conversation}

/-! ## What is watched -/

namespace Conversation

/-- A conversation is abreast of the client if it is the one that is watched. -/
def Watched (id : String) (whole : Prop) (k : Client) (c : Conversation) : Prop :=
  c.id = id → c.Abreast k whole

theorem Watched.later (watched : c.Watched id whole k) (becomes : k.Becomes k') :
    c.Watched id whole k' :=
  fun same => (watched same).later becomes

theorem Watched.of_shelf (watched : c.Watched id whole k) (same : c'.shelf = c.shelf) :
    c'.Watched id whole k := by
  intro named
  have former : c.id = id := (congrArg (·.1) same).symm.trans named
  exact (watched former).of_shelf same

/-- Conversations that are not kept whole can be written down. -/
theorem Watched.durable (written : ¬ whole) : Durable (Watched id whole k) := by
  intro c c' watched read named
  have text := read
  rw [Json.Reader.ofText_write] at text
  have same : c'.id = c.id := (congrArg Conversation.id (bare_of_read text) :)
  exact (watched (same.symm.trans named)).of_read written read

section Shelf

variable (c : Conversation) (node : Node) (cancel : Bool) (run : Visit) (before : Option Json)
  (f : Failure) (noted now : Instant) (calls : List ToolCall)

theorem shelf_leavePause : c.leavePause.shelf = c.shelf := by
  unfold leavePause
  split <;> rfl

theorem shelf_reopen : c.reopen.shelf = c.shelf := by
  unfold reopen
  split <;> rfl

theorem shelf_pauseFor : (c.pauseFor calls now).shelf = c.shelf := by
  unfold pauseFor
  split <;> rfl

theorem shelf_arrive : (c.arrive node cancel).shelf = c.shelf := by
  cases cancel <;> rfl

theorem shelf_conclude : (c.conclude node run before noted now).shelf = c.shelf := by
  unfold conclude noteRun
  cases before with
  | none => rfl
  | some before =>
    dsimp only
    split <;> rfl

theorem shelf_noteFailure : (c.noteFailure node before f now).shelf = c.shelf := by
  cases before <;> rfl

theorem shelf_takeCall {c rest : Conversation} {id : String} {now : Instant} {taken : ToolCall}
    (found : c.takeCall id now = some (taken, rest)) : rest.shelf = c.shelf := by
  obtain ⟨others, -, rfl⟩ := takeCall_spec found
  rfl

end Shelf

end Conversation

/-- What operations share where the conversation is watched. -/
structure Situation.Abreast (id : String) (whole : Prop) (k : Client) (s : Situation) : Prop where
  holds : s.store.Holds (Conversation.Watched id whole k)
  whole : whole → s.store.KeepsWhole

namespace Situation.Abreast

variable {s s' : Situation} (abreast : s.Abreast id whole k)
include abreast

theorem later (becomes : k.Becomes k') : s.Abreast id whole k' where
  holds := fun key c found => (abreast.holds key c found).later becomes
  whole := abreast.whole

theorem of_store (same : s'.store = s.store) : s'.Abreast id whole k where
  holds := same ▸ abreast.holds
  whole := same ▸ abreast.whole

theorem get (key : String) : Abreast id whole k { s with store := (s.store.get key).2 } where
  holds := abreast.holds.get key
  whole := fun whole => (abreast.whole whole).get key

theorem put (watched : c.Watched id whole k) :
    Abreast id whole k { s with store := (s.store.put c).2 } where
  holds := by
    refine abreast.holds.put_of (fun rows => ?_) watched
    obtain ⟨rows, table⟩ := rows
    refine Conversation.Watched.durable fun whole => ?_
    obtain ⟨conversations, memory⟩ := abreast.whole whole
    cases table.symm.trans memory
  whole := fun whole => (abreast.whole whole).put c

end Situation.Abreast

/-! ## Computations -/

/-- What finding the tools of a reference does once the revision is known. -/
def Engine.toolsAt (c : Conversation) (r : ProviderRef) (revision : Nat) :
    Engine (Conversation × Except ProviderFailure (Option (List OfferedTool))) := do
  match c.keptListing r.provider revision with
  | some tools => return (c, .ok (some (r.enabled tools)))
  | none =>
    match ← fullListing r with
    | .error f => return (c, .error f)
    | .ok none => return (c, .ok none)
    | .ok (some tools) =>
      return (c.keepListing r.provider tools revision (← now), .ok (some (r.enabled tools)))

/-- Whenever a listing of the watched conversation is found to be kept at the client's revision, it
is the client's listing at that moment. -/
def Conversation.Serves (id : String) (whole : Prop) (k : Client) (c : Conversation) : Prop :=
  c.id = id → ∀ k', k.Becomes k' → ∀ provider tools,
    c.keptListing provider (k'.revision provider) = some tools →
      ∃ n, (whole → n = 0) ∧
        tools = OfferedTool.reread n (OfferedTool.ofListing provider (k'.listing provider))

theorem Conversation.Watched.serves (watched : c.Watched id whole k) : c.Serves id whole k :=
  fun same _ becomes _ _ found => ((watched same).later becomes).serves found

/-- Whoever waits for the revision of a provider either lists the provider then, whatever the
revision is, or finds the tools of a reference to it, with a conversation that serves no listing
but the client's. -/
def Interaction.Consults {α : Type} (id : String) (whole : Prop) (k : Client) : (q : Question) →
    (Answer q → Situation → Interaction Situation Question Answer α) → Prop
  | .revision provider, resume =>
    (∀ revision s, ∃ s' later, resume revision s = .ask s' (.hasConnection provider) later) ∨
      ∃ (c : Conversation) (r : ProviderRef)
        (next : Conversation × Except ProviderFailure (Option (List OfferedTool)) → Situation →
          Interaction Situation Question Answer α),
        r.provider = provider ∧ c.Serves id whole k ∧
          resume = fun revision s => (Engine.toolsAt c r revision s).andThen next
  | _, _ => True

namespace Interaction

variable {α β : Type}

theorem Consults.later {q : Question}
    {resume : Answer q → Situation → Interaction Situation Question Answer α}
    (consults : Consults id whole k q resume) (becomes : k.Becomes k') :
    Consults id whole k' q resume := by
  cases q with
  | revision provider =>
    refine consults.imp (fun anew => anew) ?_
    rintro ⟨c, r, next, same, serves, goesOn⟩
    exact ⟨c, r, next, same, fun named k'' further => serves named k'' (becomes.trans further),
      goesOn⟩
  | _ => trivial

theorem Consults.andThen {q : Question}
    {resume : Answer q → Situation → Interaction Situation Question Answer α}
    (consults : Consults id whole k q resume)
    (next : α → Situation → Interaction Situation Question Answer β) :
    Consults id whole k q fun answer s => (resume answer s).andThen next := by
  cases q with
  | revision provider =>
    rcases consults with anew | ⟨c, r, first, same, serves, rfl⟩
    · refine .inl fun revision s => ?_
      obtain ⟨s', later, asks⟩ := anew revision s
      exact ⟨s', _, congrArg (Interaction.andThen next) asks⟩
    · exact .inr ⟨c, r, fun a s => (first a s).andThen next, same, serves,
        funext fun revision => funext fun s => andThen_assoc _ _ _⟩
  | _ => trivial

/-- As long as the client answers for itself and the situation is kept abreast of it, the situation
is abreast wherever it is given away, revisions are consulted, and `post` holds of the client at
the end. -/
def Tracks (id : String) (whole : Prop) (post : Client → α → Prop) :
    Client → Interaction Situation Question Answer α → Prop
  | k, .done s a => s.Abreast id whole k ∧ post k a
  | k, .ask s q resume => s.Abreast id whole k ∧ Consults id whole k q resume ∧
      ∀ answer k' s', k.Becomes k' → k'.Answers q answer → s'.Abreast id whole k' →
        (resume answer s').Tracks id whole post k'

theorem Tracks.andThen {mid : Client → α → Prop} {post : Client → β → Prop}
    {x : Interaction Situation Question Answer α}
    {next : α → Situation → Interaction Situation Question Answer β}
    (first : x.Tracks id whole mid k)
    (later : ∀ k' a s, k.Becomes k' → s.Abreast id whole k' → mid k' a →
      (next a s).Tracks id whole post k') :
    (x.andThen next).Tracks id whole post k := by
  induction x generalizing k with
  | done s a => exact later k a s (.refl k) first.1 first.2
  | ask s q resume ih =>
    obtain ⟨abreast, consults, goesOn⟩ := first
    refine ⟨abreast, consults.andThen next, ?_⟩
    intro answer k' s' becomes honest abreast'
    exact ih answer s' (goesOn answer k' s' becomes honest abreast') fun k'' a s further =>
      later k'' a s (becomes.trans further)

end Interaction

namespace Engine

variable {α β : Type}

/-- A computation that begins when the client is `k` keeps the situation abreast of the client, and
its value satisfies `post`. -/
def Tracks (id : String) (whole : Prop) (k : Client) (x : Engine α) (post : Client → α → Prop) :
    Prop :=
  ∀ s : Situation, s.Abreast id whole k → (x s).Tracks id whole post k

namespace Tracks

variable {x : Engine α} {f : α → Engine β} {mid post : Client → α → Prop}

theorem pure {a : α} (holds : post k a) : Tracks id whole k (Pure.pure a) post :=
  fun _ abreast => ⟨abreast, holds⟩

theorem bind {post : Client → β → Prop} (first : Tracks id whole k x mid)
    (later : ∀ k' a, k.Becomes k' → mid k' a → Tracks id whole k' (f a) post) :
    Tracks id whole k (x >>= f) post :=
  fun s abreast => (first s abreast).andThen fun k' a s' becomes abreast' holds =>
    later k' a becomes holds s' abreast'

/-- A computation of whose value nothing is needed. -/
theorem andThen {post : Client → β → Prop} (first : Tracks id whole k x fun _ _ => True)
    (later : ∀ k' a, k.Becomes k' → Tracks id whole k' (f a) post) :
    Tracks id whole k (x >>= f) post :=
  first.bind fun k' a becomes _ => later k' a becomes

theorem asking {q : Question} {f : Answer q → Engine β} {post : Client → β → Prop}
    (consults : Interaction.Consults id whole k q f)
    (later : ∀ k' answer, k.Becomes k' → k'.Answers q answer →
      Tracks id whole k' (f answer) post) : Tracks id whole k (ask q >>= f) post :=
  fun _ abreast => ⟨abreast, consults, fun answer k' s' becomes honest abreast' =>
    later k' answer becomes honest s' abreast'⟩

end Tracks

open Conversation (Watched)

/-! ## What the operations are made of -/

theorem tracks_situation : Tracks id whole k situation fun _ _ => True :=
  fun _ abreast => ⟨abreast, trivial⟩

/-- A question that is not about a revision. -/
theorem tracks_ask {q : Question}
    (plain : Interaction.Consults id whole k q fun (a : Answer q) s => .done s a) :
    Tracks id whole k (ask q) fun k answer => k.Answers q answer :=
  fun _ abreast => ⟨abreast, plain, fun _ _ _ _ honest abreast' => ⟨abreast', honest⟩⟩

theorem tracks_update {f : Situation → Situation} (store : ∀ s, (f s).store = s.store) :
    Tracks id whole k (update f) fun _ _ => True :=
  fun s abreast => ⟨abreast.of_store (store s), trivial⟩

theorem tracks_publish (e : Event) : Tracks id whole k (publish e) fun _ _ => True :=
  tracks_update fun _ => rfl

theorem tracks_stamp : Tracks id whole k stamp fun _ _ => True :=
  fun _ abreast => ⟨abreast.of_store rfl, trivial⟩

theorem tracks_now : Tracks id whole k now fun _ _ => True :=
  tracks_stamp.andThen fun _ _ _ => .pure trivial

theorem tracks_tryClaim (key : String) : Tracks id whole k (tryClaim key) fun _ _ => True := by
  intro s abreast
  unfold tryClaim
  split
  · exact ⟨abreast, trivial⟩
  · exact ⟨abreast.of_store rfl, trivial⟩

theorem tracks_release (key : String) : Tracks id whole k (release key) fun _ _ => True :=
  tracks_update fun _ => rfl

theorem tracks_parkCancel (key : String) :
    Tracks id whole k (parkCancel key) fun _ _ => True := by
  refine tracks_update fun s => ?_
  split <;> rfl

theorem tracks_takeCancel (key : String) :
    Tracks id whole k (takeCancel key) fun _ _ => True :=
  fun _ abreast => ⟨abreast.of_store rfl, trivial⟩

theorem tracks_isToBeCancelled (c : Conversation) :
    Tracks id whole k (isToBeCancelled c) fun _ _ => True := by
  unfold isToBeCancelled
  split
  · exact .pure trivial
  · exact tracks_situation.andThen fun _ _ _ => .pure trivial

theorem tracks_read (key : String) : Tracks id whole k (read key)
    fun k => Given fun found => ∀ c, found = some c → c.Watched id whole k := by
  intro s abreast
  refine ⟨abreast.get key, fun found given c same => ?_⟩
  subst same
  exact abreast.holds.of_get given

theorem tracks_write (watched : c.Watched id whole k) :
    Tracks id whole k (write c) fun _ _ => True :=
  fun _ abreast => ⟨abreast.put watched, trivial⟩

theorem tracks_load (key : String) :
    Tracks id whole k (load key) fun k => Given (Watched id whole k) := by
  apply (tracks_read key).bind
  intro k found _ given
  match found with
  | .error f => exact .pure (.error f)
  | .ok none => exact .pure (.error _)
  | .ok (some c) => exact .pure (.ok (given _ rfl c rfl))

theorem tracks_graph (flow : String) : Tracks id whole k (graph flow) fun _ _ => True := by
  apply tracks_situation.andThen
  intro k s _
  split <;> exact .pure trivial

/-! ## Tools -/

theorem tracks_fullListing (r : ProviderRef) : Tracks id whole k (fullListing r) fun k found =>
    ∀ tools, found = .ok (some tools) →
      tools = OfferedTool.ofListing r.provider (k.listing r.provider) := by
  have connects : Tracks id whole k (ensureConnected r) fun _ _ => True := by
    apply (tracks_ask (q := .hasConnection _) trivial).bind
    intro k connected _ _
    split
    · exact .pure trivial
    · exact (tracks_ask (q := .connect ..) trivial).bind fun _ _ _ _ => .pure trivial
  apply connects.andThen
  intro k connected _
  split
  · exact (tracks_publish _).andThen fun _ _ _ => .pure nofun
  · apply (tracks_ask (q := .listing _) trivial).bind
    intro k listing _ honest
    split
    · exact .pure nofun
    · refine .pure fun tools same => ?_
      obtain rfl := Option.some.inj (Except.ok.inj same)
      rw [show _ = k.listing r.provider from honest]

/-- What is listed after a revision has been read may be kept with it. -/
theorem tracks_toolsAt {k₁ : Client} {revision : Nat} (watched : c.Watched id whole k)
    (r : ProviderRef) (read : revision = k₁.revision r.provider) (becomes : k₁.Becomes k) :
    Tracks id whole k (toolsAt c r revision) fun k found => found.1.Watched id whole k := by
  unfold toolsAt
  split
  · exact .pure watched
  · apply (tracks_fullListing r).bind
    intro k₂ listed further given
    have still := watched.later further
    split
    · exact .pure still
    · exact .pure still
    · next tools =>
      obtain rfl := given tools rfl
      apply tracks_now.andThen
      intro k₃ now last
      subst read
      exact .pure fun same =>
        ((still.later last) same).keepListing (becomes.trans further) last now

theorem tracks_toolsOf (watched : c.Watched id whole k) (r : ProviderRef) :
    Tracks id whole k (toolsOf c r) fun k found => found.1.Watched id whole k := by
  have consults : Interaction.Consults id whole k (.revision r.provider) (toolsAt c r) :=
    .inr ⟨c, r, fun a s => .done s a, rfl, watched.serves,
      funext fun revision => funext fun s => (Interaction.andThen_ended _).symm⟩
  exact .asking consults fun k' revision becomes honest =>
    tracks_toolsAt (watched.later becomes) r honest (.refl k')

theorem tracks_toolsOfAll (watched : c.Watched id whole k) (refs : List ProviderRef) :
    Tracks id whole k (toolsOfAll c refs) fun k found => found.1.Watched id whole k := by
  induction refs generalizing c k with
  | nil => exact .pure watched
  | cons r rest ih =>
    apply (tracks_toolsOf watched r).bind
    intro k found _ watched
    split
    · exact .pure watched
    · next c' tools =>
      apply (ih watched).bind
      intro k others _ watched
      split <;> exact .pure watched

theorem tracks_turnTools (p : TurnPlan) (watched : c.Watched id whole k) :
    Tracks id whole k (turnTools p c) fun k found => found.1.Watched id whole k := by
  apply (tracks_toolsOfAll watched p.providerRefs).bind
  intro k found _ watched
  split
  · exact .pure watched
  · dsimp only
    split <;> exact .pure watched

theorem tracks_invoke (conversation : String) (call : ToolCall) :
    Tracks id whole k (invoke conversation call) fun _ _ => True := by
  unfold invoke
  split
  · exact .pure trivial
  · split
    · exact .pure trivial
    · apply (tracks_publish _).andThen
      intro k _ _
      apply (tracks_ask (q := .runTool ..) trivial).bind
      intro k answer _ _
      exact (tracks_publish _).andThen fun _ _ _ => .pure trivial

/-! ## Turns -/

theorem tracks_answerCall (p : TurnPlan) (watched : c.Watched id whole k) (call : ToolCall)
    (result : ToolResult) :
    Tracks id whole k (answerCall p c call result) (Watched id whole) :=
  tracks_stamp.andThen fun _ _ becomes => .pure ((watched.later becomes).of_shelf rfl)

theorem tracks_handleCall (p : TurnPlan) {h : Handling}
    (watched : h.conversation.Watched id whole k) (call : ToolCall) :
    Tracks id whole k (handleCall p h call) fun k h => h.conversation.Watched id whole k := by
  apply (tracks_isToBeCancelled h.conversation).andThen
  intro k cancel becomes
  have still := watched.later becomes
  have answers (result : ToolResult) (f : Conversation → Handling)
      (same : ∀ c, (f c).conversation = c) :
      Tracks id whole k (do return f (← answerCall p h.conversation call result))
        fun k h => h.conversation.Watched id whole k :=
    (tracks_answerCall p still call result).bind fun _ c _ answered =>
      .pure (by rw [same c]; exact answered)
  split
  · exact answers _ _ fun _ => rfl
  split
  · split <;> exact answers _ _ fun _ => rfl
  split
  · exact (tracks_publish _).andThen fun _ _ further => .pure (still.later further)
  · apply (tracks_invoke h.conversation.id call).andThen
    intro k' outcome further
    split
    · exact .pure (still.later further)
    · exact (tracks_answerCall p (still.later further) call _).bind fun _ _ _ answered =>
        .pure answered

theorem tracks_handleCalls (p : TurnPlan) {h : Handling}
    (watched : h.conversation.Watched id whole k) (calls : List ToolCall) :
    Tracks id whole k (handleCalls p h calls) fun k h => h.conversation.Watched id whole k := by
  induction calls generalizing h k with
  | nil => exact .pure watched
  | cons call rest ih =>
    exact (tracks_handleCall p watched call).bind fun k h _ watched => ih watched

theorem tracks_transcript (systemPrompt : String) (c : Conversation) :
    Tracks id whole k (transcript systemPrompt c) fun _ _ => True := by
  unfold transcript
  split
  · exact .pure trivial
  · exact tracks_stamp.andThen fun _ _ _ => .pure trivial

theorem tracks_converse (p : TurnPlan) (systemPrompt : String) (specs : List DeclaredTool)
    (most left calls : Nat) (watched : c.Watched id whole k) :
    Tracks id whole k (converse p systemPrompt specs most left calls c)
      fun k ended => ended.1.Watched id whole k := by
  induction left generalizing calls c k with
  | zero =>
    apply (tracks_isToBeCancelled c).andThen
    intro k cancel becomes
    have still := watched.later becomes
    split
    · exact .pure (still.of_shelf rfl)
    · exact .pure still
  | succ left ih =>
    apply (tracks_isToBeCancelled c).andThen
    intro k cancel becomes
    have still := watched.later becomes
    split
    · exact .pure (still.of_shelf rfl)
    apply (tracks_transcript systemPrompt c).andThen
    intro k messages becomes
    apply (tracks_ask (q := .complete ..) trivial).bind
    intro k' answer further _
    have still := (still.later becomes).later further
    split
    · exact .pure still
    apply tracks_stamp.andThen
    intro k s becomes
    dsimp only
    have spoken (m : Message) : (c.push m s.instant).Watched id whole k :=
      (still.later becomes).of_shelf rfl
    split
    · exact .pure (spoken _)
    apply (tracks_handleCalls p (h := ⟨_, _, _⟩) (spoken _) _).bind
    intro k h _ handled
    split
    · apply tracks_now.andThen
      intro k now becomes
      exact .pure (((handled.later becomes).of_shelf rfl).of_shelf
        (Conversation.shelf_pauseFor _ _ _))
    split
    · exact .pure handled
    · exact ih _ handled

theorem tracks_runTurn (p : TurnPlan) (watched : c.Watched id whole k) :
    Tracks id whole k (runTurn p c) fun k ended => ended.1.Watched id whole k := by
  have free : ({ c with handoff := none } : Conversation).Watched id whole k :=
    watched.of_shelf rfl
  unfold runTurn
  dsimp only
  split
  · exact .pure free
  · apply (tracks_turnTools p free).bind
    intro k found _ watched
    split
    · exact .pure watched
    · apply tracks_situation.andThen
      intro k s becomes
      exact tracks_converse p _ _ _ _ _ (watched.later becomes)

/-! ## Nodes -/

theorem tracks_runProcess (node : Node) (spec : ProcessSpec) (watched : c.Watched id whole k) :
    Tracks id whole k (runProcess node spec c) fun k ended => ended.1.Watched id whole k := by
  apply tracks_situation.andThen
  intro k s becomes
  have still := watched.later becomes
  split
  · exact .pure still
  next plan _ =>
  apply (tracks_runTurn plan still).bind
  intro k ended _ watched
  split <;> exact .pure watched

theorem tracks_runToolProvider (node : Node) (spec : ProviderSpec)
    (watched : c.Watched id whole k) :
    Tracks id whole k (runToolProvider node spec c)
      fun k ended => ended.1.Watched id whole k := by
  unfold runToolProvider
  split
  · exact .pure watched
  next provider _ =>
  dsimp only
  -- Whatever the revision is, the next question is whether the provider is connected.
  refine .asking (.inl fun revision s => ⟨s, _, rfl⟩) fun k₁ revision becomes read => ?_
  apply (tracks_fullListing _).bind
  intro k₂ listed further given
  have still := (watched.later becomes).later further
  split
  · exact .pure still
  · exact .pure still
  · next tools =>
    obtain rfl := given tools rfl
    apply tracks_now.andThen
    intro k₃ now last
    obtain rfl : revision = k₁.revision provider := read
    exact .pure fun same => ((still.later last) same).keepListing further last now

theorem tracks_visit (node : Node) (watched : c.Watched id whole k) :
    Tracks id whole k (visit node c) fun k ended => ended.1.Watched id whole k := by
  unfold visit
  split
  · exact tracks_now.andThen fun _ _ becomes => .pure ((watched.later becomes).of_shelf rfl)
  · exact tracks_runProcess node _ watched
  · exact tracks_runToolProvider node _ watched
  · exact tracks_now.andThen fun _ _ becomes => .pure ((watched.later becomes).of_shelf rfl)

end Engine

/-! ## What stays as it was -/

/-- In some exchanges a provider was listed and never refused to be connected. -/
structure WasListed (provider : String) (past : List Exchange) : Prop where
  listed : ∃ tools, (⟨.listing provider, .ok tools⟩ : Exchange) ∈ past
  connected : ∀ env f, (⟨.connect provider env, .error f⟩ : Exchange) ∉ past

/-- What finding the tools of a provider does to the listings that a conversation keeps: those of
other providers stay, and unless the provider was listed nothing changes at all. -/
structure Conversation.Relists (provider : String) (c : Conversation) (past : List Exchange)
    (c' : Conversation) : Prop where
  others (other : String) (different : other ≠ provider) :
    c'.cache.get? other = c.cache.get? other ∧
      c'.cacheRevisions.get? other = c.cacheRevisions.get? other
  unlisted : ¬ WasListed provider past → c' = c

namespace Conversation.Relists

variable {provider : String} {past : List Exchange}

theorem refl (provider : String) (past : List Exchange) (c : Conversation) :
    c.Relists provider past c :=
  ⟨fun _ _ => ⟨rfl, rfl⟩, fun _ => rfl⟩

theorem keepListing (listed : WasListed provider past) (c : Conversation)
    (tools : List OfferedTool) (revision : Nat) (now : Instant) :
    c.Relists provider past (c.keepListing provider tools revision now) where
  others other different := by
    simp [Conversation.keepListing, Table.get?_insert, different.symm]
  unlisted := fun unlisted => absurd listed unlisted

end Conversation.Relists

namespace Engine

/-- A provider is connected only where it was not refused. -/
theorem ensureConnected_unrefused (r : ProviderRef) (past : List Exchange)
    (free : ∀ env f, (⟨.connect r.provider env, .error f⟩ : Exchange) ∉ past) (s : Situation) :
    (ensureConnected r s).Follows (fun _ => True) (fun _ _ => True)
      (fun past connected _ => connected = .ok () →
        ∀ env f, (⟨.connect r.provider env, .error f⟩ : Exchange) ∉ past) past := by
  refine ⟨trivial, fun connected s _ => ?_⟩
  cases connected with
  | true => exact fun _ => by simpa using free
  | false =>
    refine ⟨trivial, fun answer s _ => ?_⟩
    cases answer with
    | error f => exact nofun
    | ok _ => exact fun _ => by simpa using free

/-- A full listing is found only where the provider was listed. -/
theorem fullListing_listed (r : ProviderRef) (past : List Exchange)
    (free : ∀ env f, (⟨.connect r.provider env, .error f⟩ : Exchange) ∉ past) (s : Situation) :
    (fullListing r s).Follows (fun _ => True) (fun _ _ => True)
      (fun past listed _ => ∀ tools, listed = .ok (some tools) → WasListed r.provider past)
      past := by
  refine (ensureConnected_unrefused r past free s).andThen fun past connected s unrefused => ?_
  cases connected with
  | error f => exact nofun
  | ok _ =>
    have free := unrefused rfl
    refine ⟨trivial, fun answer s _ => ?_⟩
    cases answer with
    | error f => exact nofun
    | ok listing =>
      intro tools _
      exact ⟨⟨listing, by simp⟩, by simpa using free⟩

/-- Finding tools leaves the listings of other providers as they are, and all of them unless the
provider is listed. -/
theorem toolsOf_relists (c : Conversation) (r : ProviderRef) (s : Situation) :
    (toolsOf c r s).Follows (fun _ => True) (fun _ _ => True)
      (fun past found _ => c.Relists r.provider past found.1) [] := by
  refine ⟨trivial, fun revision s _ => ?_⟩
  show (toolsAt c r revision s).Follows _ _ _ _
  unfold toolsAt
  cases c.keptListing r.provider revision with
  | some tools => exact .refl ..
  | none =>
    refine (fullListing_listed r _ (by simp) s).andThen fun past listed s given => ?_
    split
    · exact .refl ..
    · exact .refl ..
    · next tools => exact .keepListing (given tools rfl) ..

theorem runToolProvider_relists (node : Node) (spec : ProviderSpec) {provider : String}
    (named : spec.require node.id = .ok provider) (c : Conversation) (s : Situation) :
    (runToolProvider node spec c s).Follows (fun _ => True) (fun _ _ => True)
      (fun past ended _ => c.Relists provider past ended.1) [] := by
  unfold runToolProvider
  rw [named]
  refine ⟨trivial, fun revision s _ => ?_⟩
  refine (fullListing_listed ⟨node.id, provider, spec.enabledTools, spec.env⟩
    [⟨.revision provider, revision⟩] (by simp) s).andThen fun past listed s given => ?_
  split
  · exact .refl ..
  · exact .refl ..
  · next tools => exact .keepListing (given tools rfl) ..

end Engine

end DialogueEngine
