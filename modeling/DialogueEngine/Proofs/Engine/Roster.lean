import DialogueEngine.Proofs.Engine.Acquaintance

/-!
What a turn is offered by a client that stays as it is. A listing that a conversation keeps at the
client's revision spares asking for it, and is the one that would be given. So the tools of a turn
are those of its references one after the other, whatever has been kept; only a provider that can
no longer be connected makes a difference, as its listing is gone by all the same.
-/

namespace DialogueEngine

/-- A client that stays as it is: the revision of each provider, what it lists, and whether it can
be connected in an environment. -/
structure Roster where
  revision : String → Nat
  listing : String → Except ProviderFailure (List ListedTool)
  reaches : String → Table String → Bool

namespace Roster

/-- An answer that the client gives. A provider that is reported to be connected can be connected in
any environment. -/
def Gives (k : Roster) : Exchange → Prop
  | ⟨.revision provider, revision⟩ => revision = k.revision provider
  | ⟨.listing provider, listing⟩ => listing = k.listing provider
  | ⟨.hasConnection provider, connected⟩ =>
    connected = true → ∀ env, k.reaches provider env = true
  | ⟨.connect provider env, .ok ()⟩ => k.reaches provider env = true
  | ⟨.connect provider env, .error _⟩ => k.reaches provider env = false
  | ⟨.complete .., _⟩ | ⟨.runTool .., _⟩ => True

/-- All answers are the client's. -/
def Agrees (k : Roster) (past : List Exchange) : Prop := ∀ e ∈ past, k.Gives e

theorem Agrees.earlier {k : Roster} {past past' : List Exchange} (agrees : k.Agrees past')
    (grown : past <+: past') : k.Agrees past :=
  fun e member => agrees e (grown.subset member)

variable (k : Roster)

/-- A provider has a listing. -/
def Lists (provider : String) : Prop := ∃ listing, k.listing provider = .ok listing

/-- The tools of a provider, the first of each name. -/
def tools (provider : String) : List OfferedTool :=
  match k.listing provider with
  | .ok listing => OfferedTool.ofListing provider listing
  | .error _ => []

/-- The provider of a reference can be connected. -/
def connects (r : ProviderRef) : Bool := k.reaches r.provider r.env

/-- The tools of references, those of providers that cannot be connected left out. -/
def found (refs : List ProviderRef) : List OfferedTool :=
  (refs.filter k.connects).flatMap fun r => r.enabled (k.tools r.provider)

/-- The providers whose listings are at hand after a reference; `kept` had theirs before. -/
def after (kept : String → Bool) (r : ProviderRef) (provider : String) : Bool :=
  kept provider || provider = r.provider && k.connects r

/-- The tools of references where the listings of some providers are at hand, as is each that is
taken for an earlier reference. Those of the others are left out if they cannot be connected. -/
def gathered (kept : String → Bool) : List ProviderRef → List OfferedTool
  | [] => []
  | r :: rest =>
    (if kept r.provider || k.connects r then r.enabled (k.tools r.provider) else []) ++
      gathered (k.after kept r) rest

/-- Whether a conversation keeps a listing at the revision of its provider. -/
def kept (c : Conversation) (provider : String) : Bool :=
  (c.keptListing provider (k.revision provider)).isSome

/-- The listings that a conversation keeps at the revisions of their providers are theirs. -/
def Fresh (c : Conversation) : Prop :=
  ∀ provider tools, c.keptListing provider (k.revision provider) = some tools →
    ∃ listing, k.listing provider = .ok listing ∧ tools = OfferedTool.ofListing provider listing

/-- What the client gives for a reference. -/
def given (r : ProviderRef) : Except ProviderFailure (Option (List OfferedTool)) :=
  if k.connects r then
    match k.listing r.provider with
    | .error f => .error (.processing f.message)
    | .ok listing => .ok (some (OfferedTool.ofListing r.provider listing))
  else .ok none

variable {k} {refs : List ProviderRef} {kept : String → Bool}

/-- What is given for a reference is nothing, the listing of its provider, or that this fails. -/
theorem given_spec (k : Roster) (r : ProviderRef) :
    match k.given r with
    | .error _ => k.connects r = true ∧ ¬ k.Lists r.provider
    | .ok none => k.connects r = false
    | .ok (some tools) => k.connects r = true ∧ ∃ listing,
      k.listing r.provider = .ok listing ∧ tools = OfferedTool.ofListing r.provider listing := by
  unfold given
  by_cases reached : k.connects r = true
  · rw [if_pos reached]
    cases lists : k.listing r.provider with
    | error f =>
      refine ⟨reached, ?_⟩
      rintro ⟨listing, same⟩
      rw [lists] at same
      cases same
    | ok listing => exact ⟨reached, listing, rfl, rfl⟩
  · rw [if_neg reached]
    exact eq_false_of_ne_true reached

theorem tools_of_lists {provider : String} {listing : List ListedTool}
    (lists : k.listing provider = .ok listing) :
    k.tools provider = OfferedTool.ofListing provider listing := by
  rw [tools, lists]

/-- What is given for a reference comes before what is found for those after it. -/
theorem found_cons {r : ProviderRef} {tools : Option (List OfferedTool)}
    (gives : (k.given r).map (·.map r.enabled) = .ok tools) (rest : List ProviderRef) :
    k.found (r :: rest) = tools.getD [] ++ k.found rest := by
  have spec := k.given_spec r
  cases given : k.given r with
  | error f =>
    rw [given] at gives
    cases gives
  | ok listed =>
    rw [given] at gives spec
    obtain rfl : listed.map r.enabled = tools := Except.ok.inj gives
    cases listed with
    | none =>
      rw [found, List.filter_cons_of_neg (ne_true_of_eq_false spec)]
      rfl
    | some listed =>
      obtain ⟨reached, listing, lists, rfl⟩ := spec
      rw [found, List.filter_cons_of_pos reached, List.flatMap_cons, tools_of_lists lists]
      rfl

/-- Where every reference whose provider is at hand can be connected as well, listings that are kept
make no difference. -/
theorem gathered_eq_found (connects : ∀ r ∈ refs, kept r.provider = true ∨
      (∃ r' ∈ refs, r'.provider = r.provider ∧ k.connects r' = true) → k.connects r = true) :
    k.gathered kept refs = k.found refs := by
  induction refs generalizing kept with
  | nil => rfl
  | cons r rest ih =>
    have later : k.gathered (k.after kept r) rest = k.found rest := by
      refine ih fun r' member known => connects r' (List.mem_cons_of_mem _ member) ?_
      rcases known with own | ⟨r'', inside, same, reached⟩
      · simp only [after, Bool.or_eq_true, Bool.and_eq_true, decide_eq_true_eq] at own
        rcases own with before | ⟨same, reached⟩
        · exact .inl before
        · exact .inr ⟨r, List.mem_cons_self, same.symm, reached⟩
      · exact .inr ⟨r'', List.mem_cons_of_mem _ inside, same, reached⟩
    rw [gathered, later, found, found]
    by_cases reached : k.connects r = true
    · rw [if_pos (by simp [reached]), List.filter_cons_of_pos reached, List.flatMap_cons]
    · have absent : kept r.provider = false :=
        eq_false_of_ne_true fun own => reached (connects r List.mem_cons_self (.inl own))
      rw [if_neg (by simp [absent, reached]), List.filter_cons_of_neg reached, List.nil_append]

/-- The answers of a client that holds no connections and has no model and no tool to run. -/
def answer (k : Roster) : (q : Question) → Answer q
  | .revision provider => k.revision provider
  | .listing provider => k.listing provider
  | .hasConnection _ => false
  | .connect provider env =>
    if k.reaches provider env then .ok () else .error (.connection provider "down")
  | .complete model messages tools => (default : Answer (.complete model messages tools))
  | .runTool provider tool arguments => (default : Answer (.runTool provider tool arguments))

theorem gives_answer (k : Roster) (q : Question) : k.Gives ⟨q, k.answer q⟩ := by
  cases q with
  | revision provider => exact rfl
  | listing provider => exact rfl
  | hasConnection provider => exact nofun
  | connect provider env =>
    unfold Gives answer
    dsimp only
    by_cases reached : k.reaches provider env = true
    · rw [if_pos reached]
      exact reached
    · rw [if_neg reached]
      exact eq_false_of_ne_true reached
  | complete model messages tools => trivial
  | runTool provider tool arguments => trivial

end Roster

/-! ## Tools as they are declared -/

namespace OfferedTool

/-- A tool as it is declared to the model, with what is known of it. -/
def declared (t : OfferedTool) : DeclaredTool :=
  .ofFunction t.name t.definition.description t.definition.inputSchema

/-- A tool has been taken from a listing of its provider. -/
def Taken (t : OfferedTool) : Prop := ∃ provider listed, t = ofListed provider listed

theorem taken_of_tools {k : Roster} {provider : String} {t : OfferedTool}
    (member : t ∈ k.tools provider) : t.Taken := by
  unfold Roster.tools at member
  split at member
  · obtain ⟨listed, -, rfl⟩ := mem_ofListing member
    exact ⟨provider, listed, rfl⟩
  · cases member

theorem taken_of_gathered {k : Roster} {kept : String → Bool} {refs : List ProviderRef}
    {t : OfferedTool} (member : t ∈ k.gathered kept refs) : t.Taken := by
  induction refs generalizing kept with
  | nil => cases member
  | cons r rest ih =>
    rcases List.mem_append.1 member with own | later
    · split at own
      · exact taken_of_tools (Engine.mem_enabled own).2
      · cases own
    · exact ih later

/-- The name of a tool is not blank. -/
theorem Taken.named {t : OfferedTool} (taken : t.Taken) : Text.isBlankText t.name = false := by
  obtain ⟨provider, listed, rfl⟩ := taken
  have whole : (ofListed provider listed).name.toList =
      ToolName.marker.toList ++ (provider ++ ToolName.marker ++ listed.name).toList := by
    simp [name, ofListed, ToolName.ofTool, String.toList_append]
  rw [Text.isBlankText, whole, List.all_append]
  have front : ToolName.marker.toList.all Text.isBlank = false := by decide
  rw [front, Bool.false_and]

/-- A tool that has been taken is declared as it is, as its schema has been made acceptable. -/
theorem Taken.declare_eq {t : OfferedTool} (taken : t.Taken) (spec : DeclaredTool) :
    t.definition.declare = .ok spec ↔
      t.definition.inputSchema.isObject = true ∧ spec = t.declared := by
  have named : Text.isBlankText t.definition.name = false := taken.named
  have accepted : Schema.sanitize t.definition.inputSchema = t.definition.inputSchema := by
    obtain ⟨provider, listed, rfl⟩ := taken
    exact Schema.sanitize_sanitize listed.inputSchema
  unfold ListedTool.declare
  rw [named, if_neg Bool.false_ne_true, accepted]
  split
  · next object =>
    exact ⟨fun same => ⟨object, (Except.ok.inj same).symm⟩, fun ⟨_, same⟩ => same ▸ rfl⟩
  · next other => exact ⟨nofun, fun ⟨object, _⟩ => absurd object other⟩

theorem declareAll_taken {tools : List OfferedTool} (taken : ∀ t ∈ tools, t.Taken)
    {specs : List DeclaredTool} :
    ListedTool.declareAll (tools.map (·.definition)) = .ok specs ↔
      (∀ t ∈ tools, t.definition.inputSchema.isObject = true) ∧ specs = tools.map declared := by
  induction tools generalizing specs with
  | nil =>
    exact ⟨fun same => ⟨nofun, (Except.ok.inj same).symm⟩, fun ⟨_, same⟩ => same ▸ rfl⟩
  | cons t rest ih =>
    have first := (taken t List.mem_cons_self).declare_eq
    have later := @ih fun other member => taken other (List.mem_cons_of_mem _ member)
    rw [List.map_cons, ListedTool.declareAll, List.forall_mem_cons, List.map_cons]
    constructor
    · intro declares
      cases one : t.definition.declare with
      | error f =>
        rw [one] at declares
        cases declares
      | ok spec =>
        obtain ⟨object, rfl⟩ := (first _).1 one
        cases others : ListedTool.declareAll (rest.map (·.definition)) with
        | error f =>
          rw [one, others] at declares
          cases declares
        | ok more =>
          obtain ⟨objects, rfl⟩ := later.1 others
          rw [one, others] at declares
          exact ⟨⟨object, objects⟩, (Except.ok.inj declares).symm⟩
    · rintro ⟨⟨object, objects⟩, rfl⟩
      rw [(first _).2 ⟨object, rfl⟩, later.2 ⟨objects, rfl⟩]
      rfl

end OfferedTool

/-! ## Listings at hand -/

/-- A conversation keeps the listings of some providers at their revisions, and of no others. -/
structure Roster.Stocks (k : Roster) (kept : String → Bool) (c : Conversation) : Prop where
  own (provider : String) (has : kept provider = true) : ∃ listing,
    k.listing provider = .ok listing ∧ c.keptListing provider (k.revision provider) =
      some (OfferedTool.ofListing provider listing)
  other (provider : String) (hasNot : kept provider = false) :
    c.keptListing provider (k.revision provider) = none

namespace Roster.Stocks

variable {k : Roster} {kept : String → Bool} {c : Conversation}

theorem of_fresh (fresh : k.Fresh c) : k.Stocks (k.kept c) c where
  own provider has := by
    obtain ⟨tools, found⟩ := Option.isSome_iff_exists.1 has
    obtain ⟨listing, lists, rfl⟩ := fresh provider tools found
    exact ⟨listing, lists, found⟩
  other provider hasNot := Option.not_isSome_iff_eq_none.1 (ne_true_of_eq_false hasNot)

/-- A listing that is kept is that of its provider. -/
theorem of_kept {provider : String} {tools : List OfferedTool} (stocks : k.Stocks kept c)
    (found : c.keptListing provider (k.revision provider) = some tools) :
    kept provider = true ∧ tools = k.tools provider := by
  cases has : kept provider with
  | false =>
    rw [stocks.other provider has] at found
    cases found
  | true =>
    obtain ⟨listing, lists, own⟩ := stocks.own provider has
    obtain rfl := Option.some.inj (found.symm.trans own)
    exact ⟨rfl, (tools_of_lists lists).symm⟩

theorem of_missing {provider : String} (stocks : k.Stocks kept c)
    (missing : c.keptListing provider (k.revision provider) = none) : kept provider = false := by
  refine eq_false_of_ne_true fun has => ?_
  obtain ⟨listing, -, own⟩ := stocks.own provider has
  rw [missing] at own
  cases own

/-- Where the listing of a reference is at hand, nothing more is after it. -/
theorem after_kept {r : ProviderRef} (stocks : k.Stocks kept c) (has : kept r.provider = true) :
    k.Stocks (k.after kept r) c := by
  have same : k.after kept r = kept := by
    funext provider
    unfold after
    by_cases own : provider = r.provider
    · simp [own, has]
    · simp [own]
  rw [same]
  exact stocks

theorem after_missed {r : ProviderRef} (stocks : k.Stocks kept c)
    (missed : k.connects r = false) : k.Stocks (k.after kept r) c := by
  have same : k.after kept r = kept := by
    funext provider
    simp [after, missed]
  rw [same]
  exact stocks

theorem after_listed {r : ProviderRef} (stocks : k.Stocks kept c) (reached : k.connects r = true)
    {listing : List ListedTool} (lists : k.listing r.provider = .ok listing) (now : Instant) :
    k.Stocks (k.after kept r) (c.keepListing r.provider
      (OfferedTool.ofListing r.provider listing) (k.revision r.provider) now) := by
  have finds (provider : String) : (c.keepListing r.provider (OfferedTool.ofListing r.provider
      listing) (k.revision r.provider) now).keptListing provider (k.revision provider) =
        if r.provider = provider then some (OfferedTool.ofListing r.provider listing)
        else c.keptListing provider (k.revision provider) := by
    simp only [Conversation.keptListing, Conversation.keepListing, Table.get?_insert]
    by_cases same : r.provider = provider
    · simp [same]
    · simp [same]
  refine ⟨fun provider has => ?_, fun provider hasNot => ?_⟩
  · rw [finds]
    by_cases same : r.provider = provider
    · subst same
      exact ⟨listing, lists, if_pos rfl⟩
    · rw [if_neg same]
      exact stocks.own provider (by simpa [after, reached, Ne.symm same] using has)
  · have different : r.provider ≠ provider := by
      rintro rfl
      simp [after, reached] at hasNot
    rw [finds, if_neg different]
    exact stocks.other provider (by simpa [after, reached, Ne.symm different] using hasNot)

end Roster.Stocks

/-! ## What is found -/

/-- The names of the tools that the model is told of. -/
def Exchange.told? : Exchange → Option (List String)
  | ⟨.complete _ _ tools, _⟩ => some (tools.map DeclaredTool.name)
  | _ => none

namespace Engine

variable {k : Roster} {kept : String → Bool} {id : String} {past : List Exchange}
  {rule : List Exchange → Question → Prop} {c : Conversation} {refs : List ProviderRef}

/-- A provider is connected, or it is not, as the client has it. -/
theorem heeds_ensureConnected (k : Roster) (allows : AllowsAsides rule) (r : ProviderRef) :
    Heeds False id rule past (ensureConnected r) fun past' connected =>
      past <+: past' ∧ (k.Agrees past' → connected.isOk = k.connects r) := by
  apply (heeds_ask (allows _ (.hasConnection r.provider) trivial)).bind
  rintro past' connected rfl
  split
  · next up =>
    obtain rfl : connected = true := up
    refine .pure ⟨List.prefix_append .., fun agrees => ?_⟩
    exact (agrees ⟨.hasConnection r.provider, true⟩ (by simp) rfl r.env).symm
  · refine (heeds_ask (allows _ (.connect r.provider r.env) trivial)).mono ?_
    rintro past'' answer rfl
    refine ⟨by simp, fun agrees => ?_⟩
    have gives := agrees ⟨.connect r.provider r.env, answer⟩ (by simp)
    cases answer with
    | error f => exact (gives : k.reaches r.provider r.env = false).symm
    | ok done => exact (gives : k.reaches r.provider r.env = true).symm

theorem heeds_given (k : Roster) (allows : AllowsAsides rule) (r : ProviderRef) :
    Heeds False id rule past (fullListing r) fun past' found =>
      past <+: past' ∧ (k.Agrees past' → found = k.given r) := by
  apply (heeds_ensureConnected k allows r).bind
  rintro past' connected ⟨grown, connects⟩
  match connected with
  | .error f =>
    apply (heeds_publish _).bind
    rintro _ _ rfl
    refine .pure ⟨grown, fun agrees => ?_⟩
    have missed : k.connects r = false := (connects agrees).symm
    rw [Roster.given, missed]
    rfl
  | .ok () =>
    have reached {answer : Answer (.listing r.provider)}
        (agrees : k.Agrees (past' ++ [⟨.listing r.provider, answer⟩])) :
        k.connects r = true ∧ k.listing r.provider = answer :=
      ⟨(connects (agrees.earlier (List.prefix_append ..))).symm,
        (agrees ⟨.listing r.provider, answer⟩ (by simp) : answer = _).symm⟩
    apply (heeds_ask (allows _ (.listing r.provider) trivial)).bind
    rintro past'' answer rfl
    have grown' := grown.trans (List.prefix_append past' [⟨.listing r.provider, answer⟩])
    match answer with
    | .error f =>
      refine .pure ⟨grown', fun agrees => ?_⟩
      rw [Roster.given, if_pos (reached agrees).1, (reached agrees).2]
    | .ok listing =>
      refine .pure ⟨grown', fun agrees => ?_⟩
      rw [Roster.given, if_pos (reached agrees).1, (reached agrees).2]

/-- What is found for a reference, and what is kept then. -/
theorem heeds_toolsOf_roster (allows : AllowsAsides rule) (r : ProviderRef)
    (stocks : k.Agrees past → k.Stocks kept c) :
    Heeds False id rule past (toolsOf c r) fun past' found =>
      past <+: past' ∧ (k.Agrees past' →
        (∀ tools, found.2 = .ok tools → k.Stocks (k.after kept r) found.1 ∧ tools.getD [] =
          if kept r.provider || k.connects r then r.enabled (k.tools r.provider) else []) ∧
        ((k.connects r = true → k.Lists r.provider) → ∃ tools, found.2 = .ok tools)) := by
  apply (heeds_ask (allows _ (.revision r.provider) trivial)).bind
  rintro past' revision rfl
  have known (agrees : k.Agrees (past ++ [⟨.revision r.provider, revision⟩])) :
      revision = k.revision r.provider ∧ k.Stocks kept c :=
    ⟨agrees ⟨.revision r.provider, revision⟩ (by simp),
      stocks (agrees.earlier (List.prefix_append ..))⟩
  cases found : c.keptListing r.provider revision with
  | some tools =>
    refine .pure ⟨List.prefix_append .., fun agrees => ?_⟩
    obtain ⟨rfl, stocks⟩ := known agrees
    obtain ⟨has, rfl⟩ := stocks.of_kept found
    refine ⟨?_, fun _ => ⟨_, rfl⟩⟩
    rintro _ (- | -)
    exact ⟨stocks.after_kept has, by rw [has, Bool.true_or, if_pos rfl]; rfl⟩
  | none =>
    apply (heeds_given k allows r).bind
    rintro past'' listed ⟨grown, gives⟩
    have spec := k.given_spec r
    have grown' := (List.prefix_append past [⟨.revision r.provider, revision⟩]).trans grown
    have knows (agrees : k.Agrees past'') : revision = k.revision r.provider ∧
        k.Stocks kept c ∧ kept r.provider = false := by
      obtain ⟨rfl, stocks⟩ := known (agrees.earlier grown)
      exact ⟨rfl, stocks, stocks.of_missing found⟩
    match listed with
    | .error f =>
      refine .pure ⟨grown', fun agrees => ⟨nofun, fun lists => ?_⟩⟩
      rw [← gives agrees] at spec
      exact absurd (lists spec.1) spec.2
    | .ok none =>
      refine .pure ⟨grown', fun agrees => ⟨?_, fun _ => ⟨none, rfl⟩⟩⟩
      rintro _ (- | -)
      obtain ⟨-, stocks, hasNot⟩ := knows agrees
      rw [← gives agrees] at spec
      exact ⟨stocks.after_missed spec, by rw [hasNot, spec]; rfl⟩
    | .ok (some tools) =>
      apply heeds_now.bind
      rintro _ now rfl
      refine .pure ⟨grown', fun agrees => ⟨?_, fun _ => ⟨_, rfl⟩⟩⟩
      rintro _ (- | -)
      obtain ⟨rfl, stocks, hasNot⟩ := knows agrees
      rw [← gives agrees] at spec
      obtain ⟨reached, listing, lists, rfl⟩ := spec
      refine ⟨stocks.after_listed reached lists now, ?_⟩
      rw [reached, Bool.or_true, if_pos rfl, Roster.tools_of_lists lists]
      rfl

theorem heeds_toolsOfAll_roster (allows : AllowsAsides rule) (refs : List ProviderRef)
    (stocks : k.Agrees past → k.Stocks kept c) :
    Heeds False id rule past (toolsOfAll c refs) fun past' found =>
      past <+: past' ∧ (k.Agrees past' →
        (∀ tools, found.2 = .ok tools → tools = k.gathered kept refs) ∧
        ((∀ r ∈ refs, k.connects r = true → k.Lists r.provider) →
          ∃ tools, found.2 = .ok tools)) := by
  induction refs generalizing past kept c with
  | nil =>
    refine .pure ⟨List.prefix_rfl, fun _ => ⟨?_, fun _ => ⟨[], rfl⟩⟩⟩
    rintro _ (- | -)
    rfl
  | cons r rest ih =>
    apply (heeds_toolsOf_roster allows r stocks).bind
    rintro past₁ ⟨c₁, found⟩ ⟨grown, first⟩
    match found with
    | .error f =>
      refine .pure ⟨grown, fun agrees => ⟨nofun, fun lists => ?_⟩⟩
      obtain ⟨tools, given⟩ := (first agrees).2 (lists r List.mem_cons_self)
      cases given
    | .ok tools =>
      apply (ih fun agrees => ((first agrees).1 tools rfl).1).bind
      rintro past₂ ⟨c₂, found⟩ ⟨grown₂, later⟩
      have own (agrees : k.Agrees past₂) := ((first (agrees.earlier grown₂)).1 tools rfl).2
      match found with
      | .error f =>
        refine .pure ⟨grown.trans grown₂, fun agrees => ⟨nofun, fun lists => ?_⟩⟩
        obtain ⟨others, given⟩ :=
          (later agrees).2 fun r' member => lists r' (List.mem_cons_of_mem _ member)
        cases given
      | .ok others =>
        refine .pure ⟨grown.trans grown₂, fun agrees => ⟨?_, fun _ => ⟨_, rfl⟩⟩⟩
        rintro _ (- | -)
        rw [own agrees, (later agrees).1 others rfl, Roster.gathered]

/-- The tools of references as they are discovered, when nothing is kept. -/
theorem heeds_discoverAll_roster (k : Roster) (allows : AllowsAsides rule)
    (refs : List ProviderRef) :
    Heeds False id rule past (discoverAll refs) fun past' found =>
      past <+: past' ∧ (k.Agrees past' → (∀ tools, found = .ok tools → tools = k.found refs) ∧
        ((∀ r ∈ refs, k.connects r = true → k.Lists r.provider) → ∃ tools, found = .ok tools)) := by
  induction refs generalizing past with
  | nil =>
    refine .pure ⟨List.prefix_rfl, fun _ => ⟨?_, fun _ => ⟨[], rfl⟩⟩⟩
    rintro _ (- | -)
    rfl
  | cons r rest ih =>
    have enables : Heeds False id rule past (enabledListing r) fun past' found =>
        past <+: past' ∧ (k.Agrees past' → found = (k.given r).map (·.map r.enabled)) := by
      apply (heeds_given k allows r).bind
      rintro past' found ⟨grown, gives⟩
      match found with
      | .error f => exact .pure ⟨grown, fun agrees => by rw [← gives agrees]; rfl⟩
      | .ok listed => exact .pure ⟨grown, fun agrees => by rw [← gives agrees]; rfl⟩
    have spec := k.given_spec r
    apply enables.bind
    rintro past₁ found ⟨grown, gives⟩
    match found with
    | .error f =>
      refine .pure ⟨grown, fun agrees => ⟨nofun, fun lists => ?_⟩⟩
      have failed := gives agrees
      cases given : k.given r with
      | error f' =>
        rw [given] at spec
        exact absurd (lists r List.mem_cons_self spec.1) spec.2
      | ok listed =>
        rw [given] at failed
        cases failed
    | .ok tools =>
      apply ih.bind
      rintro past₂ found ⟨grown₂, later⟩
      match found with
      | .error f =>
        refine .pure ⟨grown.trans grown₂, fun agrees => ⟨nofun, fun lists => ?_⟩⟩
        obtain ⟨others, given⟩ :=
          (later agrees).2 fun r' member => lists r' (List.mem_cons_of_mem _ member)
        cases given
      | .ok others =>
        refine .pure ⟨grown.trans grown₂, fun agrees => ⟨?_, fun _ => ⟨_, rfl⟩⟩⟩
        rintro _ (- | -)
        rw [(later agrees).1 others rfl]
        exact (Roster.found_cons (gives (agrees.earlier grown₂)).symm rest).symm

theorem heeds_discover_roster (k : Roster) (allows : AllowsAsides rule)
    (refs : List ProviderRef) :
    Heeds False id rule past (discover refs) fun past' found => k.Agrees past' →
      (∀ tools, found = .ok tools → tools = OfferedTool.distinct [] (k.found refs)) ∧
      ((∀ r ∈ refs, k.connects r = true → k.Lists r.provider) → ∃ tools, found = .ok tools) := by
  apply (heeds_discoverAll_roster k allows refs).bind
  rintro past' found ⟨-, finds⟩
  match found with
  | .error f =>
    refine .pure fun agrees => ⟨nofun, fun lists => ?_⟩
    obtain ⟨tools, given⟩ := (finds agrees).2 lists
    cases given
  | .ok tools =>
    refine .pure fun agrees => ⟨?_, fun _ => ⟨_, rfl⟩⟩
    rintro _ (- | -)
    rw [(finds agrees).1 tools rfl]

/-- The provider tools that a turn is offered, when a conversation keeps what it does. -/
def offered (k : Roster) (p : TurnPlan) (c : Conversation) : List OfferedTool :=
  p.allowed (OfferedTool.distinct [] (k.gathered (k.kept c) p.providerRefs))

/-- The tools of a turn that are declared to the model. -/
def declaredFor (k : Roster) (p : TurnPlan) (c : Conversation) : List DeclaredTool :=
  (offered k p c).map OfferedTool.declared ++ p.handoffs.map Handoff.declare

theorem offered_sublist (k : Roster) (p : TurnPlan) (c : Conversation) :
    (offered k p c).Sublist (OfferedTool.distinct [] (k.gathered (k.kept c) p.providerRefs)) := by
  unfold offered TurnPlan.allowed
  split
  · exact .refl _
  · exact List.filter_sublist

theorem heeds_turnTools_roster (allows : AllowsAsides rule) (p : TurnPlan) (fresh : k.Fresh c) :
    Heeds False id rule [] (turnTools p c) fun past found => k.Agrees past →
      (∀ specs, found.2 = .ok specs → specs = declaredFor k p c) ∧
      ((∀ r ∈ p.providerRefs, k.connects r = true → k.Lists r.provider) →
        (∀ t ∈ offered k p c, t.definition.inputSchema.isObject = true) →
        ∃ specs, found.2 = .ok specs) := by
  have taken : ∀ t ∈ offered k p c, t.Taken := fun t member =>
    OfferedTool.taken_of_gathered
      ((OfferedTool.distinct_sublist _ _).subset ((offered_sublist k p c).subset member))
  apply (heeds_toolsOfAll_roster allows p.providerRefs fun _ => .of_fresh fresh).bind
  rintro past ⟨c', found⟩ ⟨-, gathers⟩
  match found with
  | .error f =>
    refine .pure fun agrees => ⟨nofun, fun lists => ?_⟩
    obtain ⟨tools, given⟩ := (gathers agrees).2 lists
    cases given
  | .ok tools =>
    have seen (agrees : k.Agrees past) :
        p.allowed (OfferedTool.distinct [] tools) = offered k p c := by
      rw [(gathers agrees).1 tools rfl, offered]
    dsimp only
    cases declares : ListedTool.declareAll
        ((p.allowed (OfferedTool.distinct [] tools)).map (·.definition)) with
    | error f =>
      refine .pure fun agrees => ⟨nofun, fun _ objects => ?_⟩
      rw [seen agrees, (OfferedTool.declareAll_taken taken).2 ⟨objects, rfl⟩] at declares
      cases declares
    | ok specs =>
      refine .pure fun agrees => ⟨?_, fun _ _ => ⟨_, rfl⟩⟩
      rintro _ (- | -)
      rw [seen agrees] at declares
      rw [((OfferedTool.declareAll_taken taken).1 declares).2]
      rfl

/-- The model is told of these tools and of no others, as long as all answers are the client's. -/
def Tells (k : Roster) (tools : List DeclaredTool) (past : List Exchange) (q : Question) : Prop :=
  k.Agrees past → ∀ model messages told, q = .complete model messages told → told = tools

theorem allowsAsides_tells (k : Roster) (tools : List DeclaredTool) :
    AllowsAsides (Tells k tools) := by
  rintro past _ aside - model messages told rfl
  exact aside.elim

theorem runProcess_tells {node : Node} {spec : ProcessSpec} {p : TurnPlan} {s : Situation}
    (planned : TurnPlan.of s.settings node spec c = .ok p) (fresh : k.Fresh c) :
    (runProcess node spec c s).Follows (fun _ => True) (Tells k (declaredFor k p c))
      (fun _ _ _ => True) [] := by
  have turn : Heeds False c.id (Tells k (declaredFor k p c)) [] (runTurn p c) fun _ _ => True := by
    unfold runTurn
    dsimp only
    split
    · exact .pure trivial
    · apply (heeds_turnTools_roster (c := { c with handoff := none })
        (allowsAsides_tells k _) p fresh).bind
      rintro past ⟨c', found⟩ finds
      match found with
      | .error f => exact .pure trivial
      | .ok specs =>
        apply heeds_situation.bind
        rintro past' s ⟨rfl, -⟩
        refine (heeds_of_yields (yields_converse p _ specs _ _ 0 c') ?_).mono fun _ _ _ => trivial
        rintro past'' grown _ asks agrees model messages told rfl
        rcases asks with runs | ⟨_, _, same⟩
        · cases runs
        · cases same
          exact (finds (agrees.earlier grown)).1 specs rfl
  have looks : situation s = .done s s := rfl
  unfold runProcess
  rw [Activity.bind_of_done looks, planned]
  apply ((turn s False.elim).restrict fun s' _ => False.elim).andThen
  rintro past ⟨c', ended⟩ s' -
  cases ended <;> exact trivial

/-- Take a client that stays as it is, and a conversation whose listings at the client's revisions
are the client's. The tools of providers that the model is told of in a turn are those that each
reference enables in the listing of its provider, one reference after the other and the first of
each name, as far as the process allows them. They are declared with their names, descriptions and
schemas as they are, and have names of their own. A turn is told of them if the providers that can
be connected can be listed and the schemas are objects. A listing counts if it is kept or its
provider can be connected; discovery, which keeps nothing, finds the same where whatever counts can
be connected. -/
theorem turn_offers_listings {node : Node} {spec : ProcessSpec} {p : TurnPlan} {s : Situation}
    (planned : TurnPlan.of s.settings node spec c = .ok p) (fresh : k.Fresh c) :
    let offered := p.allowed (OfferedTool.distinct [] (k.gathered (k.kept c) p.providerRefs))
    let declared := offered.map OfferedTool.declared ++ p.handoffs.map Handoff.declare
    (runProcess node spec c s).Follows (fun _ => True)
      (fun past q => k.Agrees past → ∀ model messages tools, q = .complete model messages tools →
        tools = declared) (fun _ _ _ => True) [] ∧
    (offered.map OfferedTool.name).Nodup ∧
    (turnTools p c s).Follows (fun _ => True) (fun _ _ => True) (fun past found _ =>
      k.Agrees past → (∀ r ∈ p.providerRefs, k.connects r = true → k.Lists r.provider) →
      (∀ t ∈ offered, t.definition.inputSchema.isObject = true) → found.2 = .ok declared) [] ∧
    (discover p.providerRefs s).Follows (fun _ => True) (fun _ _ => True) (fun past found _ =>
      k.Agrees past →
      (∀ tools, found = .ok tools → tools = OfferedTool.distinct [] (k.found p.providerRefs)) ∧
      ((∀ r ∈ p.providerRefs, k.connects r = true → k.Lists r.provider) →
        found = .ok (OfferedTool.distinct [] (k.found p.providerRefs)))) [] ∧
    ((∀ r ∈ p.providerRefs, k.kept c r.provider = true ∨
        (∃ r' ∈ p.providerRefs, r'.provider = r.provider ∧ k.connects r' = true) →
        k.connects r = true) →
      k.gathered (k.kept c) p.providerRefs = k.found p.providerRefs) := by
  have allows : AllowsAsides fun _ _ => True := fun _ _ _ => trivial
  refine ⟨runProcess_tells planned fresh, ?_, ?_, ?_, Roster.gathered_eq_found⟩
  · exact (OfferedTool.distinct_names [] _).1.sublist ((offered_sublist k p c).map _)
  · have finds : Heeds False c.id _ _ _ _ := heeds_turnTools_roster allows p fresh
    refine ((finds s False.elim).restrict fun _ _ => False.elim).mono (fun _ _ obeys => obeys) ?_
    rintro past found _ ⟨-, finds⟩ agrees lists objects
    obtain ⟨specs, given⟩ := (finds agrees).2 lists objects
    rw [given, (finds agrees).1 specs given]
    rfl
  · have finds : Heeds False c.id _ [] _ _ := heeds_discover_roster k allows p.providerRefs
    refine ((finds s False.elim).restrict fun _ _ => False.elim).mono (fun _ _ obeys => obeys) ?_
    rintro past found _ ⟨-, finds⟩ agrees
    refine ⟨(finds agrees).1, fun lists => ?_⟩
    obtain ⟨tools, given⟩ := (finds agrees).2 lists
    rw [given, (finds agrees).1 tools given]

/-- A client of which one provider can be connected or not, which lists two tools. -/
def webRoster (reaches : Bool) : Roster where
  revision _ := 0
  listing provider :=
    if provider = "web" then .ok [⟨"search", "", .object []⟩, ⟨"read", "", .object []⟩] else .ok []
  reaches provider _ := provider == "web" && reaches

/-- A conversation that keeps the listing. -/
def webReader : Conversation :=
  Conversation.keepListing default "web" ((webRoster true).tools "web") 0 default

theorem webReader_fresh (reaches : Bool) : (webRoster reaches).Fresh webReader := by
  intro provider tools found
  simp only [webReader, Conversation.keptListing, Conversation.keepListing,
    Table.get?_insert] at found
  by_cases own : "web" = provider
  · subst own
    refine ⟨_, rfl, ?_⟩
    have kept : (webRoster true).tools "web" = tools := by simpa [webRoster] using found
    exact kept.symm
  · rw [if_neg own, if_neg own] at found
    cases found

/-- A process that uses providers. -/
def webSpec (refs : List ProviderRef) : ProcessSpec where
  promptTemplate := ""
  model := some "m"
  allowedTools := []
  providerRefs := refs
  excludeModelPrompt := false
  excludeStartPrompt := false
  requireApproval := false

def webNode (refs : List ProviderRef) : Node := ⟨"agent", "", .process (webSpec refs), []⟩

/-- The web is to be searched, somebody is to be asked who cannot be reached, and then anything can
be done on the web. -/
def webRefs : List ProviderRef :=
  [⟨"a", "web", ["search"], ∅⟩, ⟨"b", "files", [], ∅⟩, ⟨"c", "web", [], ∅⟩]

theorem web_tools_offered : ∃ p,
    TurnPlan.of .standard (webNode webRefs) (webSpec webRefs) webReader = .ok p ∧
    (webRoster true).Fresh webReader ∧
    (runProcess (webNode webRefs) (webSpec webRefs) webReader
        (.fresh .standard .memory default)).Follows (fun _ => True)
      (fun past q => (webRoster true).Agrees past → ∀ model messages tools,
        q = .complete model messages tools →
          tools.map DeclaredTool.name = ["_-_-_web_-_-_search", "_-_-_web_-_-_read"])
      (fun _ _ _ => True) [] ∧
    (discover p.providerRefs (.fresh .standard .memory default)).Follows (fun _ => True)
      (fun _ _ => True) (fun past found _ => (webRoster true).Agrees past →
        found.map (·.map OfferedTool.name) = .ok ["_-_-_web_-_-_search", "_-_-_web_-_-_read"])
      [] := by
  have planned : TurnPlan.of (Situation.fresh .standard .memory default).settings
      (webNode webRefs) (webSpec webRefs) webReader = .ok _ := rfl
  obtain ⟨tells, -, -, finds, -⟩ := turn_offers_listings planned (webReader_fresh true)
  refine ⟨_, planned, webReader_fresh true, ?_, ?_⟩
  · refine tells.mono (fun past q told agrees model messages tools asks => ?_)
      fun _ _ _ _ => trivial
    rw [told agrees model messages tools asks]
    decide +kernel
  · refine finds.mono (fun _ _ _ => trivial) fun past found _ finds agrees => ?_
    have lists : ∀ r ∈ webRefs, (webRoster true).connects r = true →
        (webRoster true).Lists r.provider := by
      intro r _ _
      unfold Roster.Lists webRoster
      dsimp only
      split <;> exact ⟨_, rfl⟩
    rw [(finds agrees).2 lists]
    decide +kernel

/-- A listing that is kept counts even where its provider cannot be connected. -/
theorem kept_listing_outlasts_connection : ∃ p,
    TurnPlan.of .standard (webNode webRefs) (webSpec webRefs) webReader = .ok p ∧
    p.handoffs = [] ∧ (webRoster false).Fresh webReader ∧
    (webRoster false).found p.providerRefs = [] ∧
    (∀ q, (webRoster false).Gives ⟨q, (webRoster false).answer q⟩) ∧
    (Interaction.exchanges (webRoster false).answer 10 (runProcess (webNode webRefs)
      (webSpec webRefs) webReader (.fresh .standard .memory default))).filterMap Exchange.told? =
        [["_-_-_web_-_-_search", "_-_-_web_-_-_read"]] :=
  ⟨_, rfl, rfl, webReader_fresh false, rfl, (webRoster false).gives_answer, by decide +kernel⟩

end Engine

end DialogueEngine
