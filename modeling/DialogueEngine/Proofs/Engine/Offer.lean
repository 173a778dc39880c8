import DialogueEngine.Engine.Operation
import DialogueEngine.Proofs.Interaction.Course
import DialogueEngine.Proofs.Tool.Names

/-!
What a turn offers to the model. A tool is offered if a bound provider lists it, its reference
enables it and the process allows it; a listing was kept on the conversation, or is asked for in the
course of the turn.
-/

namespace DialogueEngine

/-- A question with its answer. -/
abbrev Exchange := Sigma Answer

/-! ## Names -/

/-- The declarations have the names of the tools. -/
theorem ListedTool.declareAll_map_name {tools : List ListedTool} {specs : List DeclaredTool}
    (declared : declareAll tools = .ok specs) :
    specs.map DeclaredTool.name = tools.map (·.name) := by
  induction tools generalizing specs with
  | nil =>
    cases declared
    rfl
  | cons t rest ih =>
    unfold declareAll at declared
    split at declared
    · cases declared
    next spec first =>
    cases others : declareAll rest with
    | error f =>
      rw [others] at declared
      cases declared
    | ok more =>
      rw [others] at declared
      cases declared
      have named : spec.name = t.name := by
        unfold declare at first
        split at first
        · cases first
        · split at first
          · cases first
            rfl
          · cases first
      rw [List.map_cons, List.map_cons, named, ih others]

/-- Every declaration has the name of a tool. -/
theorem ListedTool.declareAll_names {tools : List ListedTool} {specs : List DeclaredTool}
    (declared : declareAll tools = .ok specs) : ∀ d ∈ specs, ∃ t ∈ tools, d.name = t.name := by
  intro d member
  have named : d.name ∈ tools.map (·.name) :=
    declareAll_map_name declared ▸ List.mem_map_of_mem member
  obtain ⟨t, inside, same⟩ := List.mem_map.1 named
  exact ⟨t, inside, same.symm⟩

theorem TurnPlan.handoffs_are_routes {settings : Settings} {node : Node} {spec : ProcessSpec}
    {c : Conversation} {p : TurnPlan} (planned : of settings node spec c = .ok p) :
    ∀ route ∈ p.handoffs, ToolName.isRoute route.toolName = true := by
  unfold of at planned
  split at planned
  · cases planned
  · cases planned
    intro route member
    dsimp only at member
    split at member
    · obtain ⟨successor, -, rfl⟩ := List.mem_map.1 member
      exact ToolName.isRoute_handoff successor.label
    · cases member

/-! ## Listings -/

/-- A provider has been reached: it was reported to be connected, or it was attempted to connect
it. -/
def Reached (past : List Exchange) (provider : String) : Prop :=
  (⟨.hasConnection provider, true⟩ : Exchange) ∈ past ∨
    ∃ env answer, (⟨.connect provider env, answer⟩ : Exchange) ∈ past

theorem Reached.later {past past' : List Exchange} {provider : String}
    (reached : Reached past provider) (grown : past <+: past') : Reached past' provider :=
  reached.imp (fun member => grown.subset member)
    fun ⟨env, answer, member⟩ => ⟨env, answer, grown.subset member⟩

/-- A listing of a provider that a turn goes by: the conversation has kept it, or it was asked
for. -/
def Listed (c : Conversation) (past : List Exchange) (provider : String)
    (listing : List OfferedTool) : Prop :=
  (∃ revision, c.keptListing provider revision = some listing) ∨
    ∃ tools, (⟨.listing provider, .ok tools⟩ : Exchange) ∈ past ∧
      listing = OfferedTool.ofListing provider tools

theorem Listed.later {c : Conversation} {past past' : List Exchange} {provider : String}
    {listing : List OfferedTool} (listed : Listed c past provider listing)
    (grown : past <+: past') : Listed c past' provider listing := by
  rcases listed with kept | ⟨tools, member, same⟩
  · exact .inl kept
  · exact .inr ⟨tools, grown.subset member, same⟩

/-- A listed tool of a provider that is bound by one of some references, which enables it. -/
def Bound (c : Conversation) (past : List Exchange) (refs : List ProviderRef) (t : OfferedTool) :
    Prop :=
  ∃ r ∈ refs, (r.enabledTools = [] ∨ t.listedName ∈ r.enabledTools) ∧
    ∃ listing, Listed c past r.provider listing ∧ t ∈ listing

theorem Bound.later {c : Conversation} {past past' : List Exchange} {refs : List ProviderRef}
    {t : OfferedTool} (bound : Bound c past refs t) (grown : past <+: past') :
    Bound c past' refs t := by
  obtain ⟨r, member, enabled, listing, listed, inside⟩ := bound
  exact ⟨r, member, enabled, listing, listed.later grown, inside⟩

theorem Conversation.keptListing_keepListing {c : Conversation} {provider other : String}
    {tools listing : List OfferedTool} {revision revision' : Nat} {now : Instant}
    (kept : (c.keepListing provider tools revision now).keptListing other revision' =
      some listing) :
    (other = provider ∧ listing = tools) ∨ c.keptListing other revision' = some listing := by
  simp only [keptListing, keepListing, Table.get?_insert] at kept ⊢
  by_cases same : provider = other
  · rw [if_pos same, if_pos same] at kept
    split at kept
    · exact .inl ⟨same.symm, by simpa using kept.symm⟩
    · cases kept
  · rw [if_neg same, if_neg same] at kept
    exact .inr kept

namespace TurnPlan

/-- A provider's tool that the model may be offered in a turn. -/
structure Offers (p : TurnPlan) (c : Conversation) (past : List Exchange) (t : OfferedTool) :
    Prop where
  allowed : p.allowedTools = [] ∨ t.name ∈ p.allowedTools ∨ t.listedName ∈ p.allowedTools
  bound : Bound c past p.providerRefs t

/-- The tools that the model is offered: declarations of tools that a turn offers, and routes. -/
def Advertises (p : TurnPlan) (c : Conversation) (past : List Exchange)
    (tools : List DeclaredTool) : Prop :=
  ∃ (seen : List OfferedTool) (specs : List DeclaredTool),
    ListedTool.declareAll (seen.map (·.definition)) = .ok specs ∧
    tools = specs ++ p.handoffs.map Handoff.declare ∧ ∀ t ∈ seen, p.Offers c past t

variable {p : TurnPlan} {c : Conversation} {past : List Exchange}

theorem Advertises.later {past' : List Exchange} {tools : List DeclaredTool}
    (advertises : p.Advertises c past tools) (grown : past <+: past') :
    p.Advertises c past' tools := by
  obtain ⟨seen, specs, declared, same, offers⟩ := advertises
  refine ⟨seen, specs, declared, same, ?_⟩
  intro t member
  exact ⟨(offers t member).allowed, (offers t member).bound.later grown⟩

/-- A name that is offered and is not that of a route is the name of an offered tool. -/
theorem Advertises.offered {tools : List DeclaredTool} {d : DeclaredTool}
    (advertises : p.Advertises c past tools)
    (routes : ∀ route ∈ p.handoffs, ToolName.isRoute route.toolName = true) (member : d ∈ tools)
    (plain : ToolName.isRoute d.name = false) : ∃ t, p.Offers c past t ∧ t.name = d.name := by
  obtain ⟨seen, specs, declared, rfl, offers⟩ := advertises
  rcases List.mem_append.1 member with tool | handoff
  · obtain ⟨definition, listed, named⟩ := ListedTool.declareAll_names declared d tool
    obtain ⟨t, inside, rfl⟩ := List.mem_map.1 listed
    exact ⟨t, offers t inside, named.symm⟩
  · obtain ⟨route, inside, rfl⟩ := List.mem_map.1 handoff
    have named : ToolName.isRoute route.declare.name = true := routes route inside
    exact absurd (plain.symm.trans named) Bool.false_ne_true

end TurnPlan

namespace Engine

/-! ## Courses -/

variable {α β : Type} {steady : Prop} {id : String} {rule : List Exchange → Question → Prop}
  {past : List Exchange}

/-- No request to cancel a conversation is parked, as long as it is to be steady. -/
def Calm (steady : Prop) (id : String) (s : Situation) : Prop :=
  steady → s.cancelRequests.contains id = false

/-- After some exchanges a computation goes on by a rule, and its value satisfies `post`. -/
def Heeds (steady : Prop) (id : String) (rule : List Exchange → Question → Prop)
    (past : List Exchange) (x : Engine α) (post : List Exchange → α → Prop) : Prop :=
  ∀ s, Calm steady id s →
    (x s).Follows (Calm steady id) rule (fun past a s' => Calm steady id s' ∧ post past a) past

namespace Heeds

variable {x : Engine α} {post : List Exchange → α → Prop}

theorem pure {a : α} (holds : post past a) : Heeds steady id rule past (Pure.pure a) post :=
  fun _ calm => ⟨calm, holds⟩

theorem bind {f : α → Engine β} {mid : List Exchange → α → Prop}
    {post : List Exchange → β → Prop} (first : Heeds steady id rule past x mid)
    (later : ∀ past a, mid past a → Heeds steady id rule past (f a) post) :
    Heeds steady id rule past (x >>= f) post := by
  intro s calm
  apply (first s calm).andThen
  intro past a s' holds
  exact later past a holds.2 s' holds.1

theorem mono {post' : List Exchange → α → Prop} (heeds : Heeds steady id rule past x post)
    (weaker : ∀ past a, post past a → post' past a) : Heeds steady id rule past x post' :=
  fun s calm => (heeds s calm).mono (fun _ _ obeys => obeys)
    fun past a _ holds => ⟨holds.1, weaker past a holds.2⟩

/-- The exchanges only grow. -/
theorem grows (heeds : Heeds steady id rule past x post) :
    Heeds steady id rule past x fun past' a => past <+: past' ∧ post past' a := by
  intro s calm
  refine (heeds s calm).grows.mono (fun _ _ obeys => obeys) ?_
  intro past' a s' ⟨grown, calm', holds⟩
  exact ⟨calm', grown, holds⟩

end Heeds

theorem heeds_ask {q : Question} (obeys : rule past q) :
    Heeds steady id rule past (ask q) fun past' answer => past' = past ++ [⟨q, answer⟩] :=
  fun _ _ => ⟨obeys, fun _ _ calm => ⟨calm, rfl⟩⟩

theorem heeds_situation :
    Heeds steady id rule past situation fun past' s => past' = past ∧ Calm steady id s :=
  fun _ calm => ⟨calm, rfl, calm⟩

theorem heeds_update {f : Situation → Situation}
    (same : ∀ s, (f s).cancelRequests = s.cancelRequests) :
    Heeds steady id rule past (update f) fun past' _ => past' = past := by
  intro s calm
  refine ⟨?_, rfl⟩
  intro holds
  rw [same]
  exact calm holds

theorem heeds_publish (e : Event) :
    Heeds steady id rule past (publish e) fun past' _ => past' = past :=
  heeds_update fun _ => rfl

theorem heeds_stamp : Heeds steady id rule past stamp fun past' _ => past' = past :=
  fun _ calm => ⟨calm, rfl⟩

theorem heeds_now : Heeds steady id rule past now fun past' _ => past' = past :=
  heeds_stamp.bind fun _ _ same => .pure same

/-! ## Discovery -/

/-- Neither the model nor a tool is asked. -/
def Question.IsAside : Question → Prop
  | .complete .. | .runTool .. => False
  | _ => True

/-- What a turn knows before it calls the model: it has asked about providers only, providers have
been reached before they were listed, and each listing that is kept was kept before or asked for. -/
structure Knows (c : Conversation) (past : List Exchange) (c' : Conversation) : Prop where
  asides : ∀ e ∈ past, Question.IsAside e.1
  reached : ∀ provider listing, (⟨.listing provider, listing⟩ : Exchange) ∈ past →
    Reached past provider
  kept : ∀ provider revision listing, c'.keptListing provider revision = some listing →
    Listed c past provider listing
  id : c'.id = c.id
  cancelled : c'.cancelled = c.cancelled
  messages : c'.messages = c.messages

variable {c c' : Conversation}

/-- Where nothing has been asked yet, whatever route is left to be taken. -/
theorem Knows.opening (c : Conversation) (route : Option String) :
    Knows c [] { c with handoff := route } where
  asides _ none := absurd none List.not_mem_nil
  reached _ _ none := absurd none List.not_mem_nil
  kept _ revision _ found := .inl ⟨revision, found⟩
  id := rfl
  cancelled := rfl
  messages := rfl

theorem Knows.asked (knows : Knows c past c') {q : Question} (aside : Question.IsAside q)
    (ready : ∀ provider, q = .listing provider → Reached past provider) (answer : Answer q) :
    Knows c (past ++ [⟨q, answer⟩]) c' where
  asides := by
    intro e member
    rcases List.mem_append.1 member with old | new
    · exact knows.asides e old
    · exact List.mem_singleton.1 new ▸ aside
  reached := by
    intro provider listing member
    rcases List.mem_append.1 member with old | new
    · exact (knows.reached provider listing old).later (List.prefix_append ..)
    · have asks : Question.listing provider = q := congrArg Sigma.fst (List.mem_singleton.1 new)
      exact (ready provider asks.symm).later (List.prefix_append ..)
  kept := fun provider revision listing found =>
    (knows.kept provider revision listing found).later (List.prefix_append ..)
  id := knows.id
  cancelled := knows.cancelled
  messages := knows.messages

/-- A listing that a turn goes by may be kept. -/
theorem Knows.keepListing (knows : Knows c past c') {provider : String}
    {tools : List OfferedTool} (listed : Listed c past provider tools) (revision : Nat)
    (now : Instant) : Knows c past (c'.keepListing provider tools revision now) where
  asides := knows.asides
  reached := knows.reached
  kept := by
    intro other revision' listing found
    rcases Conversation.keptListing_keepListing found with ⟨rfl, rfl⟩ | old
    · exact listed
    · exact knows.kept other revision' listing old
  id := knows.id
  cancelled := knows.cancelled
  messages := knows.messages

/-- Rules that allow any question about providers. -/
def AllowsAsides (rule : List Exchange → Question → Prop) : Prop :=
  ∀ past q, Question.IsAside q → rule past q

theorem heeds_fullListing (allows : AllowsAsides rule) (knows : Knows c past c')
    (r : ProviderRef) : Heeds steady id rule past (fullListing r) fun past' listed =>
      Knows c past' c' ∧ ∀ tools, listed = .ok (some tools) → Listed c past' r.provider tools := by
  have connects : Heeds steady id rule past (ensureConnected r)
      fun past' _ => Knows c past' c' ∧ Reached past' r.provider := by
    apply (heeds_ask (allows _ (.hasConnection r.provider) trivial)).bind
    intro past' connected same
    subst same
    have known := knows.asked (q := .hasConnection r.provider) trivial nofun connected
    split
    · next up =>
      obtain rfl : connected = true := up
      exact .pure ⟨known, .inl (by simp)⟩
    · apply (heeds_ask (allows _ (.connect r.provider r.env) trivial)).bind
      intro past' answer same
      subst same
      exact .pure ⟨known.asked (q := .connect r.provider r.env) trivial nofun answer,
        .inr ⟨r.env, answer, by simp⟩⟩
  apply connects.bind
  rintro past' connected ⟨known, reached⟩
  split
  · apply (heeds_publish _).bind
    intro past' _ same
    subst same
    exact .pure ⟨known, fun _ given => nomatch given⟩
  · apply (heeds_ask (allows _ (.listing r.provider) trivial)).bind
    intro past'' answer same
    subst same
    have ready (provider : String) (same : Question.listing r.provider = .listing provider) :
        Reached past' provider := by
      cases same
      exact reached
    have listed := known.asked (q := .listing r.provider) trivial ready answer
    split
    · exact .pure ⟨listed, fun _ given => nomatch given⟩
    · next listing =>
      refine .pure ⟨listed, ?_⟩
      rintro tools (- | -)
      exact .inr ⟨listing, List.mem_append_right _ List.mem_cons_self, rfl⟩

theorem heeds_toolsOf (allows : AllowsAsides rule) (knows : Knows c past c') (r : ProviderRef) :
    Heeds steady id rule past (toolsOf c' r) fun past' found => Knows c past' found.1 ∧
      ∀ tools, found.2 = .ok (some tools) →
        ∃ listing, Listed c past' r.provider listing ∧ tools = r.enabled listing := by
  apply (heeds_ask (allows _ (.revision r.provider) trivial)).bind
  intro past' revision same
  subst same
  have known := knows.asked (q := .revision r.provider) trivial nofun revision
  split
  · next tools found =>
    refine .pure ⟨known, ?_⟩
    rintro enabled (- | -)
    exact ⟨tools, known.kept _ _ _ found, rfl⟩
  · apply (heeds_fullListing allows known r).bind
    intro past' listed holds
    obtain ⟨known, given⟩ := holds
    split
    · exact .pure ⟨known, fun _ given => nomatch given⟩
    · exact .pure ⟨known, fun _ given => nomatch given⟩
    · next tools =>
      have listed := given tools rfl
      apply heeds_now.bind
      intro past' now same
      subst same
      refine .pure ⟨known.keepListing listed revision now, ?_⟩
      rintro enabled (- | -)
      exact ⟨tools, listed, rfl⟩

theorem mem_enabled {r : ProviderRef} {listing : List OfferedTool} {t : OfferedTool}
    (member : t ∈ r.enabled listing) :
    (r.enabledTools = [] ∨ t.listedName ∈ r.enabledTools) ∧ t ∈ listing := by
  unfold ProviderRef.enabled at member
  split at member
  · next all => exact ⟨.inl (List.isEmpty_iff.1 all), member⟩
  · obtain ⟨inside, enabled⟩ := List.mem_filter.1 member
    exact ⟨.inr (List.contains_iff_mem.1 enabled), inside⟩

theorem heeds_toolsOfAll (allows : AllowsAsides rule) (knows : Knows c past c')
    (refs : List ProviderRef) : Heeds steady id rule past (toolsOfAll c' refs) fun past' found =>
      Knows c past' found.1 ∧ ∀ tools, found.2 = .ok tools → ∀ t ∈ tools, Bound c past' refs t := by
  induction refs generalizing past c' with
  | nil =>
    refine .pure ⟨knows, ?_⟩
    rintro tools (- | -) t (- | -)
  | cons r rest ih =>
    apply (heeds_toolsOf allows knows r).bind
    rintro past' ⟨c'', found⟩ ⟨known, given⟩
    match found with
    | .error f => exact .pure ⟨known, fun _ given => nomatch given⟩
    | .ok tools =>
      apply (ih known).grows.bind
      rintro past'' ⟨c₃, others⟩ ⟨grown, known', later⟩
      match others with
      | .error f => exact .pure ⟨known', fun _ given => nomatch given⟩
      | .ok others =>
        refine .pure ⟨known', ?_⟩
        rintro all (- | -) t member
        rcases List.mem_append.1 member with own | other
        · cases tools with
          | none => cases own
          | some tools =>
            obtain ⟨listing, listed, rfl⟩ := given tools rfl
            obtain ⟨enabled, inside⟩ := mem_enabled own
            exact ⟨r, List.mem_cons_self, enabled, listing, listed.later grown, inside⟩
        · obtain ⟨r', bound, rest'⟩ := later others rfl t other
          exact ⟨r', List.mem_cons_of_mem _ bound, rest'⟩

theorem mem_of_mem_distinct {seen : List String} {tools : List OfferedTool} {t : OfferedTool}
    (member : t ∈ OfferedTool.distinct seen tools) : t ∈ tools := by
  induction tools generalizing seen with
  | nil => cases member
  | cons first rest ih =>
    unfold OfferedTool.distinct at member
    split at member
    · exact List.mem_cons_of_mem _ (ih member)
    · rcases List.mem_cons.1 member with rfl | later
      · exact List.mem_cons_self
      · exact List.mem_cons_of_mem _ (ih later)

theorem mem_allowed {p : TurnPlan} {tools : List OfferedTool} {t : OfferedTool}
    (member : t ∈ p.allowed tools) :
    (p.allowedTools = [] ∨ t.name ∈ p.allowedTools ∨ t.listedName ∈ p.allowedTools) ∧
      t ∈ tools := by
  unfold TurnPlan.allowed at member
  split at member
  · next all => exact ⟨.inl (List.isEmpty_iff.1 all), member⟩
  · obtain ⟨inside, allowed⟩ := List.mem_filter.1 member
    rcases Bool.or_eq_true_iff.1 allowed with name | listed
    · exact ⟨.inr (.inl (List.contains_iff_mem.1 name)), inside⟩
    · exact ⟨.inr (.inr (List.contains_iff_mem.1 listed)), inside⟩

/-- The tools that a turn finds are those that it may offer. -/
theorem heeds_turnTools (allows : AllowsAsides rule) (knows : Knows c past c') (p : TurnPlan) :
    Heeds steady id rule past (turnTools p c') fun past' found =>
      Knows c past' found.1 ∧ ∀ tools, found.2 = .ok tools → p.Advertises c past' tools := by
  apply (heeds_toolsOfAll allows knows p.providerRefs).bind
  rintro past' ⟨c'', found⟩ ⟨known, bound⟩
  match found with
  | .error f => exact .pure ⟨known, fun _ given => nomatch given⟩
  | .ok tools =>
    dsimp only
    split
    · exact .pure ⟨known, fun _ given => nomatch given⟩
    · next specs declared =>
      refine .pure ⟨known, ?_⟩
      rintro all (- | -)
      refine ⟨_, specs, declared, rfl, ?_⟩
      intro t member
      obtain ⟨allowed, inside⟩ := mem_allowed member
      exact ⟨allowed, bound tools rfl t (mem_of_mem_distinct inside)⟩

end Engine

end DialogueEngine
