import DialogueEngine.Proofs.Engine.Acquaintance
import DialogueEngine.Proofs.History.Chartering
import DialogueEngine.Proofs.History.Listings

/-!
Calls are made on providers that have been reached. Whatever the model is offered in a history comes
from a provider that was reached before, unless its listing has been brought along from outside; so
a call of a tool that was offered goes to a provider that was reported to be connected or that it
was attempted to connect.
-/

namespace DialogueEngine

open Conversation (Acquainted)

variable {history front : List Happening} {scene : Scene} {inherited : String → Prop}
  {provider : String} {s₀ s : Situation} {c : Conversation}

/-- A provider has been reached: it was reported to be connected, or it was attempted to connect
it. -/
def Contacted (history : List Happening) (provider : String) : Prop :=
  (∃ u s, .answered u (.hasConnection provider) true s ∈ history) ∨
    ∃ u env answer s, .answered u (.connect provider env) answer s ∈ history

/-- A provider has been reached, or its listings were brought along. -/
def Met (inherited : String → Prop) (history : List Happening) (provider : String) : Prop :=
  inherited provider ∨ Contacted history provider

theorem Met.mono {later : List Happening} (met : Met inherited history provider)
    (grown : history ⊆ later) : Met inherited later provider :=
  met.imp_right <| Or.imp (fun ⟨u, s, up⟩ => ⟨u, s, grown up⟩)
    fun ⟨u, env, answer, s, connected⟩ => ⟨u, env, answer, s, grown connected⟩

/-- What is offered to the model are tools of providers that have been met, and routes. -/
def Happening.Offers (inherited : String → Prop) (front : List Happening) (h : Happening) : Prop :=
  ∀ u q s, h = .asked u q s → q.DrawsOn (Met inherited front)

theorem Conversation.Amends.shelf {c c' : Conversation} (amended : c.Amends c') :
    c'.shelf = c.shelf := by
  cases amended with
  | cancelled now => rfl
  | recording enabled now => rfl
  | posted role now => exact shelf_reopen _
  | @resolved _ _ rest _ found m later =>
    have same : rest.shelf = c.shelf := shelf_takeCall found
    exact same
  | givenUp f now => rfl
  | refused f => rfl

theorem Conversation.arrives_of_shelf {P : Conversation → Prop} {node : Node}
    {result : Conversation × Except Failure Visit}
    (holds : ∀ c, c.shelf = result.1.shelf → P c) : Arrives P node result := by
  obtain ⟨c, result⟩ := result
  cases result with
  | ok run =>
    intro cancel before noted now
    exact holds _ ((shelf_conclude ..).trans (shelf_arrive ..))
  | error f =>
    intro cancel before noted
    exact holds _ ((shelf_noteFailure ..).trans (shelf_arrive ..))

/-! ## The charter -/

/-- The conversation keeps listings of familiar providers, and the model is offered tools of those
only. -/
def Charter.acquainted (id : String) (known : String → Prop) : Charter where
  id
  law _ := True
  keeps past c := c.id = id ∧ c.Acquainted (Familiar known past)
  asks past q := q.DrawsOn (Familiar known past)
  approves := True
  named kept := kept.1
  lawful _ _ _ := trivial
  later kept grown := ⟨kept.1, kept.2.mono fun _ familiar => familiar.later grown⟩
  amends kept amended _ :=
    ⟨(congrArg (·.1) amended.shelf).trans kept.1, kept.2.of_shelf amended.shelf⟩
  lost {_ c _} kept _ _ f now :=
    have same := (Conversation.Amends.givenUp (c := c) f now).shelf
    ⟨(congrArg (·.1) same).trans kept.1, kept.2.of_shelf same⟩
  rewinds {_ c s g m} kept _ _ _ now _ :=
    have same : ((c.push m now).rewind g).reopen.shelf = c.shelf := Conversation.shelf_reopen _
    ⟨(congrArg (·.1) same).trans kept.1, kept.2.of_shelf same⟩
  visits {past c s₀ s g} kept _ _ _ _ := by
    have left := c.shelf_leavePause
    refine (Engine.visit_draws _ (kept.2.of_shelf left) _ s).mono (fun _ _ draws => draws) ?_
    rintro past' result s' ⟨named, acquainted⟩
    have own : c.leavePause.id = c.id := congrArg (·.1) left
    refine Conversation.arrives_of_shelf fun c' same => .of_amends ?_
      ⟨(congrArg (·.1) same).trans (named.trans (own.trans kept.1)), acquainted.of_shelf same⟩
    exact fun _ kept amended =>
      ⟨(congrArg (·.1) amended.shelf).trans kept.1, kept.2.of_shelf amended.shelf⟩
  approving _ runs := .of_run runs _

/-- Conversations keep the listings of providers that have been met. -/
def Chartering.acquainted (inherited : String → Prop) : Chartering where
  charter history _ _ id := .acquainted id (Met inherited history)
  inv history s := s.store.Holds (Acquainted (Met inherited history)) ∧
    (∀ c, GivenBack history c → c.Acquainted (Met inherited history)) ∧
    Happening.Each (Happening.Offers inherited) history
  named _ _ _ _ := rfl

namespace Chartering

variable {admits : List Happening → Situation → Undertaking → Prop}

/-- Whatever is familiar to an undertaking has been met in the history. -/
theorem Issued.met {u : Undertaking} {ch : Charter} {s₁ : Situation} {past : List Exchange}
    (issued : (acquainted inherited).Issued admits front u ch s₁ past) :
    ∃ known, ch = .acquainted ch.id known ∧
      ∀ provider, Familiar known past provider → Met inherited front provider := by
  have answered {x : Exchange} (member : x ∈ past) := issued.mem_answered member
  obtain ⟨before, during, id, rfl, rfl, -⟩ := issued
  refine ⟨Met inherited before, rfl, fun provider familiar => ?_⟩
  rcases familiar with met | up | ⟨env, answer, connected⟩
  · exact met.mono (List.subset_append_left before _)
  · obtain ⟨s, member⟩ := answered up
    exact .inr (.inl ⟨u, s, member⟩)
  · obtain ⟨s, member⟩ := answered connected
    exact .inr (.inr ⟨u, env, answer, s, member⟩)

theorem upheld_acquainted (stored : s₀.store.Holds (Acquainted inherited))
    (handed : ∀ history s c, admits history s (.stepWith c) → GivenBack history c ∨
      (∃ id, s.store.backing.get id = .ok (some c)) ∨ c.Acquainted inherited) :
    (acquainted inherited).Upheld admits s₀ where
  start := by
    refine ⟨fun id c found => (stored id c found).mono fun _ before => .inl before, ?_, ?_⟩
    · rintro c ⟨u, outcome, s, ended, -⟩
      cases ended
    · intro front h rest same
      simp at same
  issues {history s u id} holds sound admitted subject := by
    obtain ⟨stored, given, -⟩ := holds
    refine ⟨trivial, ?_, fun _ => trivial⟩
    have read (c : Conversation) (found : s.store.backing.get id = .ok (some c)) :
        c.id = id ∧ c.Acquainted (Familiar (Met inherited history) []) := by
      exact ⟨sound.id_eq found, (stored id c found).familiar []⟩
    cases u with
    | registration f => cases subject
    | stepWith c =>
      have acquainted : c.Acquainted (Met inherited history) := by
        rcases handed history s c admitted with back | ⟨id', found⟩ | brought
        · exact given c back
        · exact stored id' c found
        · exact brought.mono fun _ before => .inl before
      exact ⟨Option.some.inj subject, acquainted.familiar []⟩
    | operation op =>
      cases op with
      | start chosen flow message =>
        exact fun _ g _ now debugMode => ⟨rfl, .of_nothing rfl⟩
      | _ => exact read
  registers {history f s s' reply} holds admitted done := by
    obtain ⟨stored, given, each⟩ := holds
    have met (c : Conversation) (acquainted : c.Acquainted (Met inherited history)) :
        c.Acquainted (Met inherited (history ++ [.began (.registration f) s,
          .ended (.registration f) reply s'])) :=
      acquainted.mono fun _ met => met.mono (List.subset_append_left history _)
    obtain ⟨stored', given'⟩ := spread_registered given met stored done
    refine ⟨⟨stored', given', ?_⟩, fun u ch s₁ past issued _ law => ?_⟩
    · exact each.append_two (fun u q s' asked => by cases asked) fun u q s' asked => by cases asked
    · obtain ⟨known, same, -⟩ := issued.met
      rw [same]
      trivial
  works {history o h u ch s₁ past} holds stretch := by
    obtain ⟨stored, given, each⟩ := holds
    obtain ⟨known, issued, familiar⟩ := stretch.issued.met
    have front : history ++ [o] ⊆ history ++ [o, h] := by
      rw [List.append_cons history o [h]]
      exact List.subset_append_left _ _
    have kept (c : Conversation) (keeps : ch.keeps past c) :
        c.Acquainted (Met inherited (history ++ [o, h])) := by
      rw [issued] at keeps
      exact keeps.2.mono fun provider known => (familiar provider known).mono front
    have met (c : Conversation) (acquainted : c.Acquainted (Met inherited history)) :
        c.Acquainted (Met inherited (history ++ [o, h])) :=
      acquainted.mono fun _ met => met.mono (List.subset_append_left history _)
    obtain ⟨stored', given'⟩ :=
      stretch.spreads given met stored (Conversation.durable_acquainted _) kept
    refine ⟨stored', given', each.append_two (fun u' q s asked => ?_) fun u' q s asked => ?_⟩
    · have opens := stretch.opens u'
      rw [asked] at opens
      exact absurd rfl opens
    · subst asked
      have asks := stretch.asks q s (by rw [stretch.stops])
      rw [issued] at asks
      exact asks.mono familiar

end Chartering

/-! ## Calls -/

/-- What the model is offered comes from providers that were met before. -/
theorem Unfolds.offers_of_met {admits : List Happening → Situation → Undertaking → Prop}
    (free : s₀.claimed = []) (sound : s₀.store.Sound)
    (stored : s₀.store.Holds (Acquainted inherited))
    (handed : ∀ history s c, admits history s (.stepWith c) → GivenBack history c ∨
      (∃ id, s.store.backing.get id = .ok (some c)) ∨ c.Acquainted inherited)
    (unfolds : Unfolds admits s₀ history scene) :
    Happening.Each (Happening.Offers inherited) history := by
  obtain ⟨-, ⟨-, -, each⟩, -⟩ :=
    (Chartering.upheld_acquainted stored handed).unfolds free sound unfolds
  exact each

/-- When the engine runs a tool, by a turn or on approval, whose name the model has been offered in
this history, the client reports its provider as connected, or it has been attempted to connect it
before. The listing must not have been brought along from outside, no other provider may have a tool
of the same name, and a provider that was reported to be connected has to stay so. -/
theorem Unfolds.offered_tools_run_connected
    {admits : List Happening → Situation → Undertaking → Prop} {up : Nat → String → Prop}
    (free : s₀.claimed = []) (sound : s₀.store.Sound)
    (stored : s₀.store.Holds (Acquainted inherited))
    (handed : ∀ history s c, admits history s (.stepWith c) → GivenBack history c ∨
      (∃ id, s.store.backing.get id = .ok (some c)) ∨ c.Acquainted inherited)
    (unfolds : Unfolds admits s₀ history scene)
    (reported : ∀ front u provider s rest,
      history = front ++ .answered u (.hasConnection provider) true s :: rest →
        up front.length provider)
    (lasting : ∀ m n provider, m ≤ n → up m provider → up n provider)
    {rest : List Happening} {u : Undertaking} {tool : String} {arguments : Json}
    (runs : history = front ++ .asked u (.runTool provider tool arguments) s :: rest)
    (offered : ∃ u' model transcript tools s',
      .asked u' (.complete model transcript tools) s' ∈ front ∧
        ∃ d ∈ tools, d.name = ToolName.ofTool provider tool)
    (own : ∀ other t, ToolName.ofTool other t = ToolName.ofTool provider tool → other = provider)
    (fresh : ¬ inherited provider) :
    up front.length provider ∨
      ∃ u' env answer s', .answered u' (.connect provider env) answer s' ∈ front := by
  obtain ⟨u', model, transcript, tools, s', asked, d, member, named⟩ := offered
  obtain ⟨before, after, cut⟩ := List.append_of_mem asked
  have draws : (Question.complete model transcript tools).DrawsOn (Met inherited before) :=
    unfolds.offers_of_met free sound stored handed before _ _
      (by rw [runs, cut, List.append_assoc, List.cons_append]) u' _ s' rfl
  have plain : ToolName.isRoute d.name = false := named ▸ ToolName.isRoute_ofTool provider tool
  obtain ⟨other, t, met, same⟩ := draws d member plain
  obtain rfl := own other t (same.symm.trans named)
  have contacted := met.resolve_left fresh
  rcases contacted with ⟨u₁, s₁, answered⟩ | ⟨u₁, env, answer, s₁, answered⟩
  · -- The report stands before the completion, and what it reports lasts until the run.
    obtain ⟨early, late, cut'⟩ := List.append_of_mem answered
    have whole : history = early ++ .answered u₁ (.hasConnection other) true s₁ ::
        (late ++ .asked u' (.complete model transcript tools) s' ::
          (after ++ .asked u (.runTool other tool arguments) s :: rest)) := by
      rw [runs, cut, cut']
      simp
    refine .inl (lasting early.length front.length other ?_ (reported _ _ _ _ _ whole))
    rw [cut, cut']
    simp only [List.length_append, List.length_cons]
    omega
  · refine .inr ⟨u₁, env, answer, s₁, ?_⟩
    rw [cut]
    exact List.mem_append_left _ answered

/-! ## A provider that has to be connected -/

namespace Work

/-- The provider and the tool that work waits for. -/
def runs? : Work → Option (String × String × Json)
  | .ask _ (.runTool provider tool arguments) _ => some (provider, tool, arguments)
  | _ => none

theorem eq_ask_of_runs {x : Work} {tool : String} {arguments : Json}
    (runs : x.runs? = some (provider, tool, arguments)) :
    ∃ s resume, x = .ask s (.runTool provider tool arguments) resume := by
  cases x with
  | done s reply => cases runs
  | ask s q resume =>
    cases q with
    | runTool provider' tool' arguments' =>
      cases runs
      exact ⟨s, resume, rfl⟩
    | _ => cases runs

end Work

/-- The provider is not connected at first, and the model calls its tool. -/
def connectsAndFinds (q : Question) : Answer q :=
  match q with
  | .connect .. => .ok ()
  | .listing _ => .ok [⟨"find", "Finds", .object []⟩]
  | .complete .. => .ok ⟨"", [⟨"x", "_-_-_search_-_-_find", .null⟩]⟩
  | _ => default

/-- A report that a provider is connected, at a moment of a history or before. -/
def ReportedBy (history : List Happening) (n : Nat) (provider : String) : Prop :=
  ∃ m ≤ n, ∃ u s, history[m]? = some (.answered u (.hasConnection provider) true s)

theorem ReportedBy.of_append {rest : List Happening} {u : Undertaking}
    (cut : history = front ++ .answered u (.hasConnection provider) true s :: rest) :
    ReportedBy history front.length provider :=
  ⟨front.length, Nat.le_refl _, u, s, by simp [cut]⟩

theorem ReportedBy.later {m n : Nat} (reported : ReportedBy history m provider) (le : m ≤ n) :
    ReportedBy history n provider := by
  obtain ⟨i, before, report⟩ := reported
  exact ⟨i, Nat.le_trans before le, report⟩

/-- A conversation is started and run, up to the first question of its first turn. -/
def searching : Work :=
  let registered := (Undertaking.registration searchFlow).perform (.fresh .standard .memory default)
  let started :=
    (Undertaking.operation (.start (some "c") "search" none)).perform (Work.situation registered)
  (Undertaking.operation (.run "c" 2)).perform (Work.situation started)

theorem searching_reached : ∃ history others,
    Unfolds (fun _ _ u => u.UsesStore) (.fresh .standard .memory default) history
      ⟨searching.situation, searching.waiting (.operation (.run "c" 2)) ++ others⟩ ∧
    searching.happening (.operation (.run "c" 2)) ∈ history := by
  have nothing : Unfolds (fun _ _ u => u.UsesStore) (.fresh .standard .memory default) []
      ⟨.fresh .standard .memory default, []⟩ := .start
  have registered := nothing.begin (.registration searchFlow) trivial
  have started := registered.begin (.operation (.start (some "c") "search" none)) trivial
  have ran := started.begin (.operation (.run "c" 2)) trivial
  exact ⟨_, _, ran, List.mem_append_right _ (List.mem_cons_of_mem _ List.mem_cons_self)⟩

theorem find_run_connected : ∃ history scene front u s,
    Unfolds (fun _ _ u => u.UsesStore) (.fresh .standard .memory default) history scene ∧
      history = front ++ [.asked u (.runTool "search" "find" .null) s] ∧
      (ReportedBy history front.length "search" ∨
        ∃ u' env answer s', .answered u' (.connect "search" env) answer s' ∈ front) := by
  have new : Store.memory.IsNew := .inl rfl
  obtain ⟨_, others, reached, last⟩ := searching_reached
  -- The revision, whether there is a connection, one, the listing and a completion are asked for.
  obtain ⟨before, completing, last⟩ := reached.played last connectsAndFinds 4
  have ran := completing.resumed connectsAndFinds
  have completes : (searching.played connectsAndFinds 4).calls?.map
      (·.2.map DeclaredTool.name) = some ["_-_-_search_-_-_find"] := by decide +kernel
  obtain ⟨⟨model, tools⟩, calls, names⟩ := Option.map_eq_some_iff.1 completes
  obtain ⟨s₁, messages, resume, asks⟩ := Work.eq_ask_of_calls calls
  have finds : ((searching.played connectsAndFinds 4).resumed connectsAndFinds).runs? =
      some ("search", "find", .null) := by decide +kernel
  obtain ⟨s₂, later, runs⟩ := Work.eq_ask_of_runs finds
  rw [asks] at last ran runs
  rw [runs, Work.resuming] at ran
  have goesOn : resume (connectsAndFinds (.complete model messages tools)) s₁ =
      .ask s₂ (.runTool "search" "find" .null) later := runs
  rw [goesOn, List.append_cons] at ran
  -- The model was offered the tool, whose name is that of no other provider's.
  have offered : ∃ d ∈ tools, d.name = ToolName.ofTool "search" "find" := by
    have named : ToolName.ofTool "search" "find" ∈ tools.map DeclaredTool.name := by
      rw [names]
      decide
    exact List.mem_map.1 named
  have read : ToolName.split (ToolName.ofTool "search" "find") = .ok ("search", "find") := by
    decide +kernel
  refine ⟨_, _, _, _, _, ran, rfl, ?_⟩
  exact ran.offered_tools_run_connected rfl new.sound (new.holds (Acquainted fun _ => False))
    (fun _ _ _ stored => stored.elim) (fun _ _ _ _ _ cut => .of_append cut)
    (fun _ _ _ le reported => reported.later le) rfl
    ⟨_, model, messages, tools, s₁, List.mem_append_left _ last, offered⟩
    (fun other t => ToolName.ofTool_own read (by decide)) id

end DialogueEngine
