import DialogueEngine.Proofs.Conversation.Recall
import DialogueEngine.Proofs.Engine.Consulting
import DialogueEngine.Proofs.Engine.Routes
import DialogueEngine.Proofs.Interaction.Chronicle

/-!
Which providers a turn draws on. The listings that a conversation keeps are those of providers that
are known. A turn lists a provider only once it has reached it, so that the tools that it offers to
the model, and the listings that it leaves behind, are of providers that were known before or have
been reached since.
-/

namespace DialogueEngine

open Json (Medium Reader Record lookup scanned)
open Json.Placed (map_eq_ok seq_eq_ok)

/-- A provider was known before, or has been reached since. -/
def Familiar (known : String → Prop) (past : List Exchange) (provider : String) : Prop :=
  known provider ∨ Reached past provider

variable {known : String → Prop} {past past' : List Exchange} {provider : String}

theorem Familiar.later (familiar : Familiar known past provider) (grown : past <+: past') :
    Familiar known past' provider :=
  familiar.imp_right fun reached => reached.later grown

theorem Familiar.append (familiar : Familiar (Familiar known past) past' provider) :
    Familiar known (past ++ past') provider := by
  rcases familiar with (before | reached) | (up | ⟨env, answer, connected⟩)
  · exact .inl before
  · exact .inr (reached.later (List.prefix_append ..))
  · exact .inr (.inl (List.mem_append_right past up))
  · exact .inr (.inr ⟨env, answer, List.mem_append_right past connected⟩)

/-- A name is that of a tool of one of some providers. -/
def ToolName.Belongs (providers : String → Prop) (name : String) : Prop :=
  ∃ provider tool, providers provider ∧ name = ofTool provider tool

theorem ToolName.Belongs.mono {providers more : String → Prop} {name : String}
    (belongs : Belongs providers name) (grown : ∀ provider, providers provider → more provider) :
    Belongs more name := by
  obtain ⟨provider, tool, own, same⟩ := belongs
  exact ⟨provider, tool, grown provider own, same⟩

/-- The model is offered tools of some providers only, and routes. -/
def Question.DrawsOn (providers : String → Prop) : Question → Prop
  | .complete _ _ tools => ∀ d ∈ tools, ToolName.isRoute d.name = false →
      ToolName.Belongs providers d.name
  | _ => True

theorem Question.DrawsOn.mono {providers more : String → Prop} {q : Question}
    (draws : q.DrawsOn providers) (grown : ∀ provider, providers provider → more provider) :
    q.DrawsOn more := by
  cases q with
  | complete model transcript tools => exact fun d member plain => (draws d member plain).mono grown
  | _ => trivial

theorem Question.DrawsOn.of_run {q : Question} (runs : q.isRun = true)
    (providers : String → Prop) : q.DrawsOn providers := by
  cases q with
  | runTool provider tool arguments => trivial
  | _ => cases runs

/-! ## Conversations -/

theorem ListedTool.name_of_read {m : Medium} {t t' : ListedTool}
    (ok : ListedTool.read m (scanned t.toJson) = .ok t') : t'.name = t.name := by
  obtain ⟨slots, -, made, reads⟩ := Record.read_scanned ["name", "description", "input_schema"] ok
  obtain ⟨_, schema, made₁, -, rfl⟩ := seq_eq_ok made
  obtain ⟨_, description, made₂, -, rfl⟩ := seq_eq_ok made₁
  obtain ⟨name, named, rfl⟩ := map_eq_ok made₂
  exact reads.text named (by simp) (by simp [lookup])

namespace OfferedTool

theorem names_of_read {m : Medium} {t t' : OfferedTool}
    (ok : OfferedTool.read m (scanned t.toJson) = .ok t') :
    (t'.name, t'.listedName) = (t.name, t.listedName) := by
  obtain ⟨slots, -, made, reads⟩ := Record.read_scanned ["provider", "original_name", "definition"]
    ok
  obtain ⟨_, definition, made₁, defined, rfl⟩ := seq_eq_ok made
  obtain ⟨_, listedName, made₂, listed, rfl⟩ := seq_eq_ok made₁
  obtain ⟨provider, -, rfl⟩ := map_eq_ok made₂
  have own : listedName = t.listedName := reads.text listed (by simp) (by simp [lookup])
  have name : definition.name = t.definition.name :=
    ListedTool.name_of_read (reads.required defined (by simp) (by simp [lookup]))
  exact Prod.ext name own

end OfferedTool

namespace Conversation

variable {c c' : Conversation} {providers more : String → Prop}

/-- The listings that a conversation keeps are those of some providers, with the names that are made
for their tools. -/
structure Acquainted (providers : String → Prop) (c : Conversation) : Prop where
  stocked : c.Stocked
  kept (provider : String) (tools : List OfferedTool)
    (found : c.cache.get? provider = some tools) : providers provider

theorem Acquainted.mono (acquainted : c.Acquainted providers)
    (grown : ∀ provider, providers provider → more provider) : c.Acquainted more where
  stocked := acquainted.stocked
  kept provider tools found := grown provider (acquainted.kept provider tools found)

theorem Acquainted.of_shelf (acquainted : c.Acquainted providers) (same : c'.shelf = c.shelf) :
    c'.Acquainted providers := by
  have cache : c'.cache = c.cache := congrArg (·.2.1) same
  obtain ⟨stocked, kept⟩ := acquainted
  rw [Stocked, ← cache] at stocked
  rw [← cache] at kept
  exact ⟨stocked, kept⟩

theorem Acquainted.familiar (acquainted : c.Acquainted known) (past : List Exchange) :
    c.Acquainted (Familiar known past) :=
  acquainted.mono fun _ before => .inl before

/-- Nothing is kept at first. -/
theorem Acquainted.of_nothing (cache : c.cache = ∅) : c.Acquainted providers where
  stocked provider tools found := by
    rw [cache] at found
    cases found
  kept provider tools found := by
    rw [cache] at found
    cases found

/-- The keys of a cache and the names in it are written down and read again. -/
theorem durable_acquainted (providers : String → Prop) : Durable (Acquainted providers) := by
  intro c c' acquainted ok
  rw [Reader.ofText_write] at ok
  obtain ⟨_, -, back⟩ := readBack ok
  have names : c'.cache.mapValues (·.map fun t => (t.name, t.listedName)) =
      c.cache.mapValues (·.map fun t => (t.name, t.listedName)) :=
    Reader.table_scanned (fun _ _ _ listed =>
      Reader.list_scanned (fun _ _ _ => OfferedTool.names_of_read) listed) back.cache
  have former (provider : String) (tools : List OfferedTool)
      (found : c'.cache.get? provider = some tools) : ∃ old, c.cache.get? provider = some old ∧
        old.map (fun t => (t.name, t.listedName)) = tools.map fun t => (t.name, t.listedName) := by
    have same := congrArg (·.get? provider) names
    simp only [Table.get?_mapValues, found, Option.map_some] at same
    exact Option.map_eq_some_iff.1 same.symm
  refine ⟨fun provider tools found t member => ?_, fun provider tools found => ?_⟩
  · obtain ⟨old, kept, same⟩ := former provider tools found
    have inside : (t.name, t.listedName) ∈ old.map fun t => (t.name, t.listedName) :=
      same ▸ List.mem_map_of_mem member
    obtain ⟨t₀, own, named⟩ := List.mem_map.1 inside
    obtain ⟨name, listed⟩ := Prod.mk.inj named
    rw [← name, ← listed]
    exact acquainted.stocked provider old kept t₀ own
  · obtain ⟨old, kept, -⟩ := former provider tools found
    exact acquainted.kept provider old kept

end Conversation

/-! ## Turns -/

namespace Engine

variable {c c' : Conversation}

/-- Whatever a turn goes by is the listing of a familiar provider. -/
theorem Knows.familiar (knows : Knows c past c') (acquainted : c.Acquainted known)
    {listing : List OfferedTool} (listed : Listed c past provider listing) :
    Familiar known past provider := by
  rcases listed with ⟨revision, kept⟩ | ⟨tools, asked, -⟩
  · unfold Conversation.keptListing at kept
    split at kept
    · exact .inl (acquainted.kept provider listing kept)
    · cases kept
  · exact .inr (knows.reached provider _ asked)

theorem Knows.acquainted (knows : Knows c past c') (acquainted : c.Acquainted known) :
    c'.Acquainted (Familiar known past) := by
  have listed (provider : String) (tools : List OfferedTool)
      (found : c'.cache.get? provider = some tools) : Listed c past provider tools := by
    refine knows.kept provider ((c'.cacheRevisions.get? provider).getD 0) tools ?_
    rw [Conversation.keptListing, if_pos rfl, found]
  exact ⟨fun provider tools found t member =>
      (listed provider tools found).name acquainted.stocked member,
    fun provider tools found => knows.familiar acquainted (listed provider tools found)⟩

/-- What a turn offers are tools of familiar providers, and routes. -/
theorem Knows.belongs {p : TurnPlan} {specs : List DeclaredTool} (knows : Knows c past c')
    (acquainted : c.Acquainted known) (advertises : p.Advertises c past specs)
    (routes : ∀ route ∈ p.handoffs, ToolName.isRoute route.toolName = true) :
    ∀ d ∈ specs, ToolName.isRoute d.name = false →
      ToolName.Belongs (Familiar known past) d.name := by
  intro d member plain
  obtain ⟨t, offers, named⟩ := advertises.offered routes member plain
  obtain ⟨r, -, -, listing, listed, inside⟩ := offers.bound
  exact ⟨r.provider, t.listedName, knows.familiar acquainted listed,
    named.symm.trans (listed.name acquainted.stocked inside)⟩

/-- The questions of a turn that has found its tools. -/
def Goes (specs : List DeclaredTool) (q : Question) : Prop :=
  q.isRun = true ∨ ∃ model messages, q = .complete model messages specs

/-- Once a turn has found its tools it leaves alone the listings that are kept. -/
theorem yields_converse (p : TurnPlan) (systemPrompt : String) (specs : List DeclaredTool)
    (most left calls : Nat) (c : Conversation) :
    Activity.Yields (Goes specs) (converse p systemPrompt specs most left calls c)
      fun result => result.1.shelf = c.shelf := by
  have looks (c : Conversation) :
      Activity.Yields (Goes specs) (isToBeCancelled c) fun _ => True :=
    .of_ends fun s => (isToBeCancelled_ends c s).mono (fun _ => id) fun _ _ _ => trivial
  have stamps : Activity.Yields (Goes specs) stamp fun _ => True := .of_ends fun _ => trivial
  have nows : Activity.Yields (Goes specs) now fun _ => True := .of_ends fun _ => trivial
  induction left generalizing calls c with
  | zero =>
    apply (looks c).bind
    intro cancelled _
    split <;> exact .pure rfl
  | succ left ih =>
    apply (looks c).bind
    intro cancelled _
    split
    · exact .pure rfl
    have prompts : Activity.Yields (Goes specs) (transcript systemPrompt c) fun _ => True := by
      unfold transcript
      split
      · exact .pure trivial
      · exact stamps.bind fun _ _ => .pure trivial
    apply prompts.bind
    intro messages _
    have asks : Activity.Yields (Goes specs) (ask (.complete p.model messages specs))
        fun _ => True :=
      fun _ => ⟨trivial, .inr ⟨p.model, messages, rfl⟩, fun _ _ _ => trivial⟩
    apply asks.bind
    intro answer _
    split
    · exact .pure rfl
    next completion =>
    apply stamps.bind
    intro stamp _
    split
    · exact .pure rfl
    have treats : Activity.Yields (Goes specs)
        (handleCalls p ⟨c.push ((Message.assistant completion.content completion.toolCalls
          stamp).saidAt p.node) stamp.instant, [], none⟩ completion.toolCalls)
        fun h => h.conversation.shelf = c.shelf :=
      fun s => (yields_handleCalls p _ completion.toolCalls s).mono (fun _ runs => .inl runs)
        fun _ _ same => same
    apply treats.bind
    intro h same
    split
    · exact nows.bind fun now _ => .pure ((Conversation.shelf_pauseFor ..).trans same)
    split
    · exact .pure same
    · rw [← same]
      exact ih (calls + 1) h.conversation

/-- What is required of questions whatever is answered is a rule for what is asked later on. -/
theorem heeds_of_yields {α : Type} {id : String} {rule : List Exchange → Question → Prop}
    {asks : Question → Prop} {post : α → Prop} {x : Engine α} (yields : Activity.Yields asks x post)
    (obeys : ∀ past', past <+: past' → ∀ q, asks q → rule past' q) :
    Heeds False id rule past x fun past' a => past <+: past' ∧ post a := by
  intro s _
  have follows : (x s).Follows (Calm False id) (fun _ => asks) (fun _ a _ => post a) [] :=
    (yields s).follows fun _ _ => trivial
  have later : (x s).Follows (Calm False id) rule
      (fun past' a s' => Calm False id s' ∧ past <+: past' ∧ post a) (past ++ []) :=
    follows.shift past (fun more q asked => obeys _ (List.prefix_append past more) q asked)
      fun more a s' holds => ⟨False.elim, List.prefix_append past more, holds⟩
  rwa [List.append_nil] at later

/-! ## Nodes -/

/-- A computation draws on familiar providers, and the conversation that it gives back keeps
listings of familiar providers only. -/
abbrev Draws {α : Type} (known : String → Prop) (id : String) (past : List Exchange)
    (x : Engine (Conversation × α)) : Prop :=
  Heeds False id (fun past q => q.DrawsOn (Familiar known past)) past x fun past result =>
    result.1.id = id ∧ result.1.Acquainted (Familiar known past)

theorem allowsAsides_draws (known : String → Prop) :
    AllowsAsides fun past q => q.DrawsOn (Familiar known past) := by
  intro past q aside
  cases q with
  | complete model transcript tools => exact aside.elim
  | _ => trivial

theorem draws_runTurn {p : TurnPlan}
    (routes : ∀ route ∈ p.handoffs, ToolName.isRoute route.toolName = true)
    (acquainted : c.Acquainted known) : Draws known c.id [] (runTurn p c) := by
  unfold runTurn
  dsimp only
  split
  · exact .pure ⟨rfl, (acquainted.familiar []).of_shelf rfl⟩
  · apply (heeds_turnTools (allowsAsides_draws known) (.opening c none) p).bind
    rintro past ⟨c', found⟩ ⟨knows, advertises⟩
    have acquainted' := knows.acquainted acquainted
    match found with
    | .error f => exact .pure ⟨knows.id, acquainted'⟩
    | .ok specs =>
      have belongs := knows.belongs acquainted (advertises specs rfl) routes
      apply heeds_situation.bind
      rintro past' s ⟨rfl, -⟩
      refine (heeds_of_yields (yields_converse p _ specs _ _ 0 c') ?_).mono ?_
      · rintro past' grown q (runs | ⟨model, messages, rfl⟩)
        · exact .of_run runs _
        · exact fun d member plain =>
            (belongs d member plain).mono fun _ familiar => familiar.later grown
      · rintro past' result ⟨grown, same⟩
        exact ⟨(congrArg (·.1) same : result.1.id = c'.id).trans knows.id,
          (acquainted'.mono fun _ familiar => familiar.later grown).of_shelf same⟩

theorem draws_runProcess (node : Node) (spec : ProcessSpec) (acquainted : c.Acquainted known) :
    Draws known c.id [] (runProcess node spec c) := by
  apply heeds_situation.bind
  rintro past s ⟨rfl, -⟩
  split
  · exact .pure ⟨rfl, acquainted.familiar []⟩
  next plan planned =>
  apply (draws_runTurn (TurnPlan.handoffs_are_routes planned) acquainted).bind
  intro past result holds
  split <;> exact .pure holds

theorem draws_runToolProvider (node : Node) (spec : ProviderSpec)
    (acquainted : c.Acquainted known) : Draws known c.id [] (runToolProvider node spec c) := by
  unfold runToolProvider
  split
  · exact .pure ⟨rfl, acquainted.familiar []⟩
  next provider _ =>
  dsimp only
  apply (heeds_ask trivial).bind
  intro past revision same
  have asked : Knows c past c := same ▸
    (Knows.opening c c.handoff).asked (q := .revision provider) trivial nofun revision
  apply (heeds_fullListing (allowsAsides_draws known) asked _).bind
  rintro past' listed ⟨knows, given⟩
  have familiar := knows.acquainted acquainted
  split
  · exact .pure ⟨rfl, familiar⟩
  · exact .pure ⟨rfl, familiar⟩
  · next tools =>
    have listed := given tools rfl
    apply heeds_now.bind
    rintro past' now rfl
    exact .pure ⟨rfl, (knows.keepListing listed revision now).acquainted acquainted⟩

theorem draws_visit (node : Node) (acquainted : c.Acquainted known) :
    Draws known c.id [] (visit node c) := by
  have changed {c' : Conversation} (same : c'.shelf = c.shelf) :
      c'.id = c.id ∧ c'.Acquainted (Familiar known []) :=
    ⟨congrArg (·.1) same, (acquainted.familiar []).of_shelf same⟩
  unfold visit
  split
  · apply heeds_now.bind
    rintro past now rfl
    exact .pure (changed rfl)
  · exact draws_runProcess node _ acquainted
  · exact draws_runToolProvider node _ acquainted
  · apply heeds_now.bind
    rintro past now rfl
    exact .pure (changed rfl)

/-- The run of a node draws on providers that are familiar by then, whatever was asked before. -/
theorem visit_draws (node : Node) (acquainted : c.Acquainted (Familiar known past))
    (law : Situation → Prop) (s : Situation) :
    (visit node c s).Follows law (fun past q => q.DrawsOn (Familiar known past))
      (fun past result _ => result.1.id = c.id ∧ result.1.Acquainted (Familiar known past))
      past := by
  have later : (visit node c s).Follows (Calm False c.id)
      (fun past q => q.DrawsOn (Familiar known past))
      (fun past result _ => result.1.id = c.id ∧ result.1.Acquainted (Familiar known past))
      (past ++ []) :=
    (draws_visit node acquainted s False.elim).shift past
      (fun more q draws => draws.mono fun _ familiar => familiar.append)
      fun more result s' holds => ⟨holds.2.1, holds.2.2.mono fun _ familiar => familiar.append⟩
  rw [List.append_nil] at later
  exact later.restrict fun _ _ => False.elim

end Engine

end DialogueEngine
