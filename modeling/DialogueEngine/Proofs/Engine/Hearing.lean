import DialogueEngine.Proofs.Engine.Handoff

/-!
Ways to the model. A conversation is completed by a finish alone. Wherever no finish is reached
without a process in between, and no route is left to be taken that leads to one, the run of a node
either asks the model to go on from all that has been said, or leaves the conversation where this is
so again.
-/

namespace DialogueEngine

/-- The model was asked to go on from some messages, with or without an introduction. -/
def Exchange.Hears (messages : List Message) (e : Exchange) : Prop :=
  ∃ model front specs, e.1 = .complete model (front ++ messages) specs

/-- The model is asked about all that is said in a conversation, whatever comes before and after. -/
def Question.Recites (d : Conversation) (q : Question) : Prop :=
  ∃ model messages specs, q = .complete model messages specs ∧
    d.messages.map Message.bare <:+: messages.map Message.bare

theorem Exchange.Hears.recites {c d : Conversation} {e : Exchange} (hears : Hears c.messages e)
    (said : d.messages.map Message.bare <+: c.messages.map Message.bare) : e.1.Recites d := by
  obtain ⟨model, front, specs, asked⟩ := hears
  obtain ⟨added, same⟩ := said
  exact ⟨model, _, specs, asked, front.map Message.bare, added, by
    rw [List.map_append, ← same, List.append_assoc]⟩

/-- A finish is reached from a node without the model being asked: past starts and providers of
tools, and past a process only along a route that is left to be taken. -/
inductive Graph.Bypasses (g : Graph) : Option String → Node → Prop
  | finish {route : Option String} {node : Node} (kind : node.spec = .finish) :
      Bypasses g route node
  | passed {route : Option String} {node : Node} {id : String}
      (kind : node.spec.kind = .start ∨ node.spec.kind = .toolProvider)
      (leads : node.next node.fallbackAction = some id)
      (later : Bypasses g route (g.nodeAt (some id))) : Bypasses g route node
  | routed {label id : String} {node : Node} {spec : ProcessSpec}
      (kind : node.spec = .process spec) (several : 1 < node.successors.length)
      (way : ∃ s ∈ node.successors, s.label = label)
      (leads : node.next (.edge label) = some id)
      (later : Bypasses g none (g.nodeAt (some id))) : Bypasses g (some label) node

namespace Graph

variable {g : Graph} {node : Node}

/-- A route that is left to be taken is one way more to a finish. -/
theorem Bypasses.of_unrouted (bypasses : g.Bypasses none node) (route : Option String) :
    g.Bypasses route node := by
  generalize unrouted : none = left at bypasses
  induction bypasses with
  | finish kind => exact .finish kind
  | passed kind leads _ ih => exact .passed kind leads (ih unrouted)
  | routed => cases unrouted

/-- What names the same node next, or none, goes on where it has just been. -/
theorem nodeAt_standing (g : Graph) (formed : g.Formed) (next current : Option String) :
    g.nodeAt (next <|> some (g.nodeAt (next <|> current)).id) = g.nodeAt (next <|> current) := by
  cases next with
  | none => exact g.nodeAt_self formed (g.nodeAt_mem _)
  | some id => rfl

/-- From a process a finish is reached only along a route. -/
theorem not_bypasses_process {spec : ProcessSpec} (kind : node.spec = .process spec) :
    ¬ g.Bypasses none node := by
  intro bypasses
  cases bypasses with
  | finish finishes => rw [kind] at finishes; cases finishes
  | passed silent => rw [kind] at silent; exact silent.elim nofun nofun

end Graph

/-- A conversation is not completed, and will not be before the model has been asked. -/
structure Conversation.WillAsk (g : Graph) (c : Conversation) : Prop where
  going : c.status ≠ .completed
  headed : ¬ g.Bypasses c.handoff (g.nodeAt (c.next <|> c.current))

namespace Engine

variable {α β : Type} {g : Graph} {node : Node} {c : Conversation} {messages : List Message}

/-- Either the model is asked to go on from the messages, or the value satisfies `post`. -/
def Listens (messages : List Message) (x : Engine α) (post : α → Prop) : Prop :=
  ∀ past s, (x s).Follows (fun _ => True) (fun _ _ => True)
    (fun past a _ => (∃ e ∈ past, Exchange.Hears messages e) ∨ post a) past

namespace Listens

theorem pure {a : α} {post : α → Prop} (holds : post a) :
    Listens messages (Pure.pure a : Engine α) post :=
  fun _ _ => .inr holds

theorem bind {x : Engine α} {f : α → Engine β} {mid : α → Prop} {post : β → Prop}
    (first : Listens messages x mid) (later : ∀ a, mid a → Listens messages (f a) post) :
    Listens messages (x >>= f) post := by
  intro past s
  apply (first past s).andThen
  rintro past a s (⟨e, member, hears⟩ | holds)
  · refine (Interaction.follows_any (f a s) past).grows.mono (fun _ _ obeys => obeys) ?_
    rintro past' b s' ⟨grown, -⟩
    exact .inl ⟨e, grown.subset member, hears⟩
  · exact later a holds past s

theorem of_yields {asks : Question → Prop} {x : Engine α} {post : α → Prop}
    (yields : Activity.Yields asks x post) : Listens messages x post :=
  fun _ s => ((yields s).follows fun _ _ => trivial).mono (fun _ _ _ => trivial)
    fun _ _ _ holds => .inr holds

theorem of_ends {x : Engine α} {post : α → Prop} (ends : ∀ s, (x s).Ends fun a _ => post a) :
    Listens messages x post :=
  of_yields (.of_ends ends : Activity.Yields (fun _ => False) x post)

theorem mono {x : Engine α} {post post' : α → Prop} (listens : Listens messages x post)
    (weaker : ∀ a, post a → post' a) : Listens messages x post' :=
  fun past s => (listens past s).mono (fun _ _ obeys => obeys)
    fun _ a _ holds => holds.imp_right (weaker a)

theorem complete (model : String) (front : List Message) (specs : List DeclaredTool)
    (post : Except ModelFailure Completion → Prop) :
    Listens messages (ask (.complete model (front ++ messages) specs)) post :=
  fun _ _ => ⟨trivial, fun _ _ _ => .inl ⟨_, List.mem_append_right _ List.mem_cons_self,
    model, front, specs, rfl⟩⟩

end Listens

/-! ## Turns -/

/-- What a turn comes to that does not ask the model: the conversation is as it was but for its
listings and the route, and the turn takes a route that was left, or stays on the node, or fails. -/
structure Unasked (p : TurnPlan) (c : Conversation)
    (result : Conversation × Except Failure TurnOutcome) : Prop where
  going : result.1.status = c.status
  next : result.1.next = c.next
  unrouted : result.1.handoff = none
  leaves (outcome : TurnOutcome) (ended : result.2 = .ok outcome) :
    outcome.action = .stayOnNode ∨
      ∃ label, c.handoff = some label ∧ p.OffersLabel label ∧ outcome.action = .edge label

theorem listens_converse (p : TurnPlan) (systemPrompt : String) (specs : List DeclaredTool)
    (most left calls : Nat) (unrouted : c.handoff = none) :
    Listens c.messages (converse p systemPrompt specs most left calls c) (Unasked p c) := by
  have looks (s : Situation) : (isToBeCancelled c s).Ends fun _ _ => True :=
    (isToBeCancelled_ends c s).mono (fun _ asked => asked) fun _ _ _ => trivial
  have cancelled : Listens c.messages
      (Pure.pure ({ c with cancelled := true }, .ok (.cancelled calls)) :
        Engine (Conversation × Except Failure TurnOutcome)) (Unasked p c) :=
    .pure ⟨rfl, rfl, unrouted, fun outcome ended => by cases ended; exact .inl rfl⟩
  cases left with
  | zero =>
    apply (Listens.of_ends looks).bind
    intro cancel _
    split
    · exact cancelled
    · exact .pure ⟨rfl, rfl, unrouted, fun outcome ended => by cases ended⟩
  | succ left =>
    apply (Listens.of_ends looks).bind
    intro cancel _
    split
    · exact cancelled
    have prompts (s : Situation) : (transcript systemPrompt c s).Ends fun messages _ =>
        ∃ front, messages = front ++ c.messages :=
      (transcript_rests systemPrompt c s).mono (fun _ asked => asked) fun _ _ rests => rests.2
    apply (Listens.of_ends prompts).bind
    rintro _ ⟨front, rfl⟩
    exact (Listens.complete p.model front specs fun _ => False).bind fun _ never => never.elim

/-- A turn asks the model to go on from all that has been said, unless it takes a route that was
left to be taken, is cancelled or fails before. -/
theorem listens_runTurn (p : TurnPlan) (c : Conversation) :
    Listens c.messages (runTurn p c) (Unasked p c) := by
  unfold runTurn
  dsimp only
  split
  · next label carried =>
    obtain ⟨left, offered⟩ := Option.filter_eq_some_iff.1 carried
    obtain ⟨route, member, named⟩ := List.any_eq_true.1 offered
    refine .pure ⟨rfl, rfl, rfl, fun outcome ended => ?_⟩
    cases ended
    exact .inr ⟨label, left, ⟨route, member, of_decide_eq_true named⟩, rfl⟩
  apply (Listens.of_yields (yields_turnTools_unlisted p { c with handoff := none })).bind
  rintro ⟨c', tools⟩ same
  have going : c'.status = c.status := (congrArg Conversation.status same :)
  have next : c'.next = c.next := (congrArg Conversation.next same :)
  have unrouted : c'.handoff = none := (congrArg Conversation.handoff same :)
  have said : c'.messages = c.messages := (congrArg Conversation.messages same :)
  cases tools with
  | error f => exact .pure ⟨going, next, unrouted, fun outcome ended => by cases ended⟩
  | ok specs =>
    have looks (s : Situation) : (situation s).Ends fun _ _ => True := trivial
    apply (Listens.of_ends looks).bind
    intro s _
    rw [← said]
    refine (listens_converse p _ specs _ _ 0 unrouted).mono fun result unasked => ?_
    refine ⟨unasked.going.trans going, unasked.next.trans next, unasked.unrouted,
      fun outcome ended => .inl ((unasked.leaves outcome ended).resolve_right ?_)⟩
    rintro ⟨label, routed, -⟩
    rw [unrouted] at routed
    cases routed

/-! ## Visits -/

/-- Where a conversation goes on after a visit of a node. -/
def onward (node : Node) : Except Failure Visit → Option String
  | .ok run => node.next run.action <|> some node.id
  | .error _ => some node.id

/-- What a visit comes to that does not ask the model, where it is still to be asked. -/
structure Unheard (g : Graph) (node : Node) (c : Conversation)
    (result : Conversation × Except Failure Visit) : Prop where
  going : result.1.status ≠ .completed
  next : result.1.next = c.next
  headed : ¬ g.Bypasses result.1.handoff (g.nodeAt (onward node result.2))

/-- Where a visit leaves a conversation at the same node, or lets it go on to one. -/
theorem not_bypasses_onward (formed : g.Formed) (member : node ∈ g.nodes) {route : Option String}
    {result : Except Failure Visit} (stays : ¬ g.Bypasses route node)
    (leaves : ∀ run id, result = .ok run → node.next run.action = some id →
      ¬ g.Bypasses route (g.nodeAt (some id))) :
    ¬ g.Bypasses route (g.nodeAt (onward node result)) := by
  have itself : ¬ g.Bypasses route (g.nodeAt (some node.id)) := by
    rwa [g.nodeAt_self formed member]
  cases result with
  | error f => exact itself
  | ok run =>
    cases next : node.next run.action with
    | none =>
      rw [onward, next]
      exact itself
    | some id =>
      rw [onward, next]
      exact leaves run id rfl next

theorem yields_runToolProvider_unlisted (node : Node) (spec : ProviderSpec) (c : Conversation) :
    Activity.Yields (fun _ => True) (runToolProvider node spec c) fun result =>
      unlisted result.1 = unlisted c ∧
        ∀ run, result.2 = .ok run → run.action = node.fallbackAction := by
  unfold runToolProvider
  cases spec.require node.id with
  | error f => exact .pure ⟨rfl, fun run ended => by cases ended⟩
  | ok provider =>
    refine (Activity.Yields.always (ask _)).bind fun revision _ => ?_
    refine (Activity.Yields.always (fullListing _)).bind fun found _ => ?_
    split
    · exact .pure ⟨rfl, fun run ended => by cases ended⟩
    · exact .pure ⟨rfl, fun run ended => by cases ended; rfl⟩
    · exact (Activity.Yields.always now).bind fun _ _ =>
        .pure ⟨rfl, fun run ended => by cases ended; rfl⟩

/-- The run of a process that has no finish to be reached without the model. -/
theorem listens_runProcess {spec : ProcessSpec} (kind : node.spec = .process spec)
    (formed : g.Formed) (member : node ∈ g.nodes) (going : c.status ≠ .completed)
    (headed : ¬ g.Bypasses c.handoff node) :
    Listens c.messages (runProcess node spec c) (Unheard g node c) := by
  have looks (s : Situation) : (situation s).Ends fun _ _ => True := trivial
  have silent : ¬ g.Bypasses none node := g.not_bypasses_process kind
  unfold runProcess
  apply (Listens.of_ends looks).bind
  intro s _
  cases planned : TurnPlan.of s.settings node spec c with
  | error f =>
    exact .pure ⟨going, rfl, not_bypasses_onward formed member headed
      fun run id ended => by cases ended⟩
  | ok p =>
    apply (listens_runTurn p c).bind
    rintro ⟨c', ended⟩ unasked
    have going' : c'.status ≠ .completed := unasked.going ▸ going
    have unrouted : c'.handoff = none := unasked.unrouted
    have itself : ¬ g.Bypasses c'.handoff node := by rwa [unrouted]
    cases ended with
    | error f =>
      exact .pure ⟨going', unasked.next, not_bypasses_onward formed member itself
        fun run id ended => by cases ended⟩
    | ok outcome =>
      refine .pure ⟨going', unasked.next, not_bypasses_onward formed member itself ?_⟩
      rintro run id ⟨⟩ leads bypasses
      rcases unasked.leaves outcome rfl with stays | ⟨label, routed, offered, takes⟩
      · obtain rfl : node.id = id := by
          have again : node.next outcome.action = some node.id := by rw [stays]; rfl
          exact Option.some.inj (again.symm.trans leads)
        rw [g.nodeAt_self formed member] at bypasses
        exact itself bypasses
      · -- The route that was left would have been the way to a finish.
        obtain ⟨several, way⟩ := TurnPlan.way_of_offered planned offered
        rw [routed] at headed
        exact headed (.routed kind several way (takes ▸ leads) (unrouted ▸ bypasses))

/-- Where no finish is reached without the model, the run of a node asks it to go on from all that
has been said, or this is still so wherever the conversation goes on. -/
theorem listens_visit (formed : g.Formed) (member : node ∈ g.nodes) (going : c.status ≠ .completed)
    (headed : ¬ g.Bypasses c.handoff node) :
    Listens c.messages (visit node c) (Unheard g node c) := by
  have passes {c' : Conversation} {result : Except Failure Visit}
      (silent : node.spec.kind = .start ∨ node.spec.kind = .toolProvider)
      (kept : c'.status = c.status ∧ c'.next = c.next ∧ c'.handoff = c.handoff)
      (falls : ∀ run, result = .ok run → run.action = node.fallbackAction) :
      Unheard g node c (c', result) := by
    obtain ⟨status, next, handoff⟩ := kept
    refine ⟨status ▸ going, next, handoff.symm ▸ not_bypasses_onward formed member headed ?_⟩
    rintro run id rfl leads bypasses
    rw [falls run rfl] at leads
    exact headed (.passed silent leads bypasses)
  unfold visit
  split
  · next spec kind =>
    have times (s : Situation) : (now s).Ends fun _ _ => True := trivial
    apply (Listens.of_ends times).bind
    intro now _
    refine .pure (passes (.inl (by rw [kind]; rfl)) ⟨rfl, rfl, rfl⟩ ?_)
    rintro run ⟨⟩
    rfl
  · next spec kind => exact listens_runProcess kind formed member going headed
  · next spec kind =>
    refine (Listens.of_yields (yields_runToolProvider_unlisted node spec c)).mono ?_
    rintro ⟨c', result⟩ ⟨same, falls⟩
    exact passes (.inr (by rw [kind]; rfl)) ⟨(congrArg Conversation.status same :),
      (congrArg Conversation.next same :), (congrArg Conversation.handoff same :)⟩ falls
  · next kind => exact absurd (.finish kind) headed

end Engine

/-! ## Conversations -/

namespace Conversation

variable {g : Graph} {node : Node} {c c' : Conversation}

theorem WillAsk.of_bare (same : c'.bare = c.bare) (asks : c.WillAsk g) : c'.WillAsk g := by
  have status : c'.status = c.status := (congrArg Conversation.status same :)
  have next : c'.next = c.next := (congrArg Conversation.next same :)
  have current : c'.current = c.current := (congrArg Conversation.current same :)
  have handoff : c'.handoff = c.handoff := (congrArg Conversation.handoff same :)
  exact ⟨status ▸ asks.going, by rw [next, current, handoff]; exact asks.headed⟩

/-- What is said, decided and recorded meanwhile leaves a conversation on its way. -/
theorem WillAsk.amends (asks : c.WillAsk g) (amended : c.Amends c') (goesOn : c'.next = c.next) :
    c'.WillAsk g := by
  have going := asks.going
  cases amended with
  | cancelled now => exact ⟨going, asks.headed⟩
  | recording enabled now =>
    refine ⟨?_, asks.headed⟩
    unfold withRecording touch
    dsimp only
    split
    · nofun
    · exact going
  | posted role now =>
    unfold reopen
    split
    · exact ⟨nofun, asks.headed⟩
    · exact ⟨going, asks.headed⟩
  | resolved found m later =>
    obtain ⟨others, -, rfl⟩ := takeCall_spec found
    refine ⟨?_, asks.headed⟩
    unfold push
    dsimp only
    split
    · nofun
    · exact going
  | givenUp f now =>
    -- Nothing was named next before, so the conversation stands where it stood.
    have none : c.next = .none := goesOn.symm
    have headed := asks.headed
    rw [none] at headed
    exact ⟨nofun, fun bypasses => headed (bypasses.of_unrouted _)⟩
  | refused f => exact ⟨going, asks.headed⟩

/-- The same holds where a pause or a failure is left behind. -/
theorem WillAsk.leavePause (asks : c.WillAsk g) : c.leavePause.status ≠ .completed ∧
    ¬ g.Bypasses c.leavePause.handoff (g.nodeAt (c.next <|> c.current)) := by
  unfold Conversation.leavePause
  split
  · exact ⟨nofun, asks.headed⟩
  · exact ⟨asks.going, asks.headed⟩

/-- A conversation that is given up at a process, or at a node from which the model will be asked,
goes on there. -/
theorem willAsk_giveUp (formed : g.Formed) (member : node ∈ g.nodes)
    (silent : ¬ g.Bypasses none node) (stands : c.current = some node.id) (f : Failure)
    (now : Instant) : (c.giveUp f now).WillAsk g := by
  have place : g.nodeAt ((c.giveUp f now).next <|> (c.giveUp f now).current) = node := by
    have given : ((c.giveUp f now).next <|> (c.giveUp f now).current) = some node.id := stands
    rw [given, g.nodeAt_self formed member]
  refine ⟨nofun, ?_⟩
  rw [place]
  exact silent

/-- A visit that does not ask the model leaves it to be asked, also where the step is given up. -/
theorem WillAsk.arrives (asks : c.WillAsk g) (formed : g.Formed)
    (place : g.nodeAt (c.next <|> c.current) = node)
    {result : Conversation × Except Failure Visit}
    (unheard : Engine.Unheard g node c.leavePause result) :
    Arrives (Outlasts (WillAsk g)) node result := by
  have member : node ∈ g.nodes := place ▸ g.nodeAt_mem _
  have itself : g.nodeAt (some node.id) = node := g.nodeAt_self formed member
  have silent : ¬ g.Bypasses none node :=
    fun bypasses => asks.headed (place ▸ bypasses.of_unrouted _)
  obtain ⟨c', result⟩ := result
  obtain ⟨going, next, headed⟩ := unheard
  rw [leavePause_next] at next
  cases result with
  | ok run =>
    intro cancel before noted now
    have stands : ((c'.arrive node cancel).conclude node run before noted now).current =
        some node.id := by rw [conclude_current, arrive_current]
    refine ⟨⟨?_, ?_⟩, willAsk_giveUp formed member silent stands⟩
    · rw [conclude_status, arrive_status]
      split
      · nofun
      · exact going
    · rw [stands, conclude_next, conclude_handoff, arrive_handoff]
      exact headed
  | error f =>
    intro cancel before noted
    have stands : ((c'.arrive node cancel).noteFailure node before f noted).current =
        some node.id := by rw [noteFailure_current, arrive_current]
    obtain ⟨status, handoff⟩ :
        ((c'.arrive node cancel).noteFailure node before f noted).status = c'.status ∧
          ((c'.arrive node cancel).noteFailure node before f noted).handoff = c'.handoff := by
      cases before <;> cases cancel <;> exact ⟨rfl, rfl⟩
    refine ⟨⟨status ▸ going, ?_⟩, willAsk_giveUp formed member silent stands⟩
    -- It still names next what it named before, and that is the node that was run.
    have still := g.nodeAt_standing formed c.next c.current
    rw [place] at still
    rw [Engine.onward, itself] at headed
    rw [stands, noteFailure_next, arrive_next, next, handoff, still]
    exact headed

/-! ## What becomes of a conversation meanwhile -/

/-- How often the user has spoken. -/
def userTurns (c : Conversation) : Nat := c.messages.countP fun m => m.role = .user

theorem userTurns_bare (c : Conversation) :
    (c.messages.map Message.bare).countP (fun m => m.role = .user) = c.userTurns := by
  rw [List.countP_map]
  rfl

/-- What comes of a conversation `d` that has been left on its way: all that was said is still
there, and unless the user has spoken again, the model has been asked or will be. -/
structure Pursues (c : Conversation) (g : Graph) (d : Conversation) (heard : Prop) : Prop where
  flow : c.flow = d.flow
  said : d.messages.map Message.bare <+: c.messages.map Message.bare
  asks : c.userTurns = d.userTurns → heard ∨ c.WillAsk g

variable {d : Conversation} {heard heard' : Prop}

namespace Pursues

theorem refl (asks : d.WillAsk g) : d.Pursues g d heard :=
  ⟨rfl, List.prefix_rfl, fun _ => .inr asks⟩

theorem mono (pursues : c.Pursues g d heard) (more : heard → heard') : c.Pursues g d heard' :=
  { pursues with asks := fun same => (pursues.asks same).imp_left more }

theorem of_bare (same : c'.bare = c.bare) (pursues : c.Pursues g d heard) :
    c'.Pursues g d heard := by
  have flow : c'.flow = c.flow := (congrArg Conversation.flow same :)
  have messages : c'.messages.map Message.bare = c.messages.map Message.bare :=
    (congrArg Conversation.messages same :)
  have turns : c'.userTurns = c.userTurns := by rw [← userTurns_bare, messages, userTurns_bare]
  refine ⟨flow.trans pursues.flow, messages ▸ pursues.said, fun equal => ?_⟩
  exact (pursues.asks (turns ▸ equal)).imp_right (·.of_bare same)

/-- A conversation that goes on while the user is silent has to see to it that the model is asked,
if that has not been done. -/
theorem grows (pursues : c.Pursues g d heard) (more : heard → heard') (grown : c.Extends c')
    (asks : c.userTurns = d.userTurns → c'.userTurns = d.userTurns → c.WillAsk g →
      heard' ∨ c'.WillAsk g) : c'.Pursues g d heard' := by
  refine ⟨grown.flow.trans pursues.flow, pursues.said.trans (grown.messages.map _), fun same => ?_⟩
  have first : d.userTurns ≤ c.userTurns := by
    rw [← userTurns_bare, ← userTurns_bare c]
    exact pursues.said.sublist.countP_le
  have later : c.userTurns ≤ c'.userTurns := grown.messages.sublist.countP_le
  have before : c.userTurns = d.userTurns := Nat.le_antisymm (same ▸ later) first
  exact (pursues.asks before).elim (fun heard => .inl (more heard)) (asks before same)

theorem amends (pursues : c.Pursues g d heard) (amended : c.Amends c') (goesOn : c'.next = c.next) :
    c'.Pursues g d heard :=
  pursues.grows (fun heard => heard) amended.continues.1
    fun _ _ asks => .inr (asks.amends amended goesOn)

/-- What comes of the visit of a node, if that asks the model or leaves it to be asked. -/
theorem arrives (pursues : c.Pursues g d heard) (more : heard → heard')
    {result : Conversation × Except Failure Visit} (continues : Arrives (Continues c) node result)
    (goes : c.WillAsk g → heard' ∨ Arrives (Outlasts (WillAsk g)) node result) :
    Arrives (Outlasts fun c' => c'.Pursues g d heard') node result := by
  have given {c' : Conversation} (continues : Continues c c') (f : Failure) (now : Instant) :
      c.Extends (c'.giveUp f now) := (continues.trans (Amends.givenUp f now).continues).1
  have settled (all : ∀ c', c.Extends c' → c'.Pursues g d heard') :
      Arrives (Outlasts fun c' => c'.Pursues g d heard') node result :=
    continues.mono fun c' continues =>
      ⟨all c' continues.1, fun f now => all _ (given continues f now)⟩
  by_cases asks : c.WillAsk g
  · rcases goes asks with heard | arrives
    · exact settled fun c' grown => pursues.grows more grown fun _ _ _ => .inl heard
    · exact (continues.and arrives).mono fun c' ⟨continues, kept, lost⟩ =>
        ⟨pursues.grows more continues.1 fun _ _ _ => .inr kept, fun f now =>
          pursues.grows more (given continues f now) fun _ _ _ => .inr (lost f now)⟩
  · exact settled fun c' grown => pursues.grows more grown fun _ _ asks' => absurd asks' asks

/-- Where the conversation goes back to its resume point, the user has spoken again. -/
theorem rewound (pursues : c.Pursues g d heard) (g' : Graph) {m : Message} (role : m.role = .user)
    (now : Instant) : (((c.push m now).rewind g').reopen).Pursues g d heard := by
  refine pursues.grows (fun heard => heard) (continues_rewound c m now g').1
    fun before after _ => ?_
  have more : (((c.push m now).rewind g').reopen).userTurns = c.userTurns + 1 := by
    have messages : (((c.push m now).rewind g').reopen).messages = c.messages ++ [m] := by
      unfold reopen
      split <;> rfl
    rw [userTurns, messages, List.countP_append, List.countP_singleton, if_pos (by simp [role])]
    rfl
  omega

end Pursues

/-! ## Posted messages -/

/-- A process of the graph has spoken in a conversation. -/
def Spoken (g : Graph) (c : Conversation) : Prop :=
  ∃ m ∈ c.messages, m.role = .assistant ∧ ∃ id node spec, m.node = some id ∧
    g.node? id = some node ∧ node.spec = .process spec

/-- Once a process has spoken, the resume point of a conversation is a process. -/
theorem answeringNode_process (formed : g.Formed) (spoken : c.Spoken g) :
    ∃ spec, (g.nodeAt (some (c.answeringNode g))).spec = .process spec := by
  obtain ⟨m, inside, role, id, node, spec, named, known, kind⟩ := spoken
  have listed : node ∈ (((c.messages.reverse.filter fun m => m.role = .assistant).filterMap
      (·.node)) ++ c.current.toList).filterMap g.node? := by
    refine List.mem_filterMap.2 ⟨id, List.mem_append_left _ ?_, known⟩
    refine List.mem_filterMap.2 ⟨m, ?_, named⟩
    exact List.mem_filter.2 ⟨List.mem_reverse.2 inside, decide_eq_true role⟩
  unfold answeringNode
  extract_lets spoke nodes
  cases found : nodes.find? fun n => n.spec.kind = .process with
  | none =>
    have other := List.find?_eq_none.1 found node listed
    rw [kind] at other
    exact absurd rfl (of_decide_eq_false (eq_false_of_ne_true other))
  | some n =>
    have process : n.spec.kind = .process := by simpa using List.find?_some found
    obtain ⟨_, -, known'⟩ := List.mem_filterMap.1 (List.mem_of_find?_eq_some found)
    rw [Option.getD_some, g.nodeAt_self formed (List.mem_of_find?_eq_some known')]
    cases is : n.spec with
    | process spec => exact ⟨spec, rfl⟩
    | _ => rw [is] at process; cases process

/-- A conversation that goes back to a process that has spoken asks the model from there. -/
theorem willAsk_rewound (formed : g.Formed) (spoken : c.Spoken g) (unrouted : c.handoff = none)
    (m : Message) (now : Instant) : (((c.push m now).rewind g).reopen).WillAsk g := by
  have spoken' : (c.push m now).Spoken g :=
    spoken.imp fun _ ⟨inside, said⟩ => ⟨List.mem_append_left _ inside, said⟩
  obtain ⟨spec, kind⟩ := answeringNode_process formed spoken'
  have headed : ¬ g.Bypasses none (g.nodeAt (some ((c.push m now).answeringNode g))) :=
    g.not_bypasses_process kind
  unfold reopen
  split
  · exact ⟨nofun, unrouted ▸ headed⟩
  · next unfinished => exact ⟨fun completed => unfinished (.inl completed), unrouted ▸ headed⟩

/-- What is made of a conversation when the user says something. -/
inductive PostedTo (flows : Table Graph) (text : String) (c : Conversation) : Conversation → Prop
  | rewound {m : Message} {g : Graph} (role : m.role = .user) (content : m.content = text)
      (now : Instant) (needed : (c.push m now).needsRewind = true)
      (known : flows.get? c.flow = some g) : PostedTo flows text c ((c.push m now).rewind g).reopen
  | added {m : Message} (role : m.role = .user) (content : m.content = text) (now : Instant)
      (stands : (c.push m now).needsRewind = false) : PostedTo flows text c (c.push m now).reopen

theorem PostedTo.message {flows : Table Graph} {text : String} (posted : c.PostedTo flows text d) :
    ∃ m, m.role = .user ∧ m.content = text ∧ d.messages = c.messages ++ [m] := by
  cases posted with
  | @rewound m g role content now needed known => exact ⟨m, role, content, reopen_messages _⟩
  | @added m role content now stands => exact ⟨m, role, content, reopen_messages _⟩

/-- Where a process has spoken, the model will be asked about a posted message, if the conversation
goes back to its resume point; and otherwise, if the way on does not bypass the model. -/
theorem PostedTo.willAsk {flows : Table Graph} {text : String} {settings : Settings}
    (posted : c.PostedTo flows text d) (known : flows.get? c.flow = some g) (formed : g.Formed)
    (bound : c.Bound settings g) (spoken : c.Spoken g)
    (headed : c.status = .completed ∨ c.next = none ∨
      ¬ g.Bypasses d.handoff (g.nodeAt (d.next <|> d.current))) : d.WillAsk g := by
  cases posted with
  | @rewound m g' role content now needed known' =>
    obtain rfl : g = g' := Option.some.inj (known.symm.trans known')
    exact willAsk_rewound formed spoken (bound.unrouted needed) m now
  | @added m role content now stands =>
    obtain ⟨unfinished, goes⟩ := Bool.or_eq_false_iff.1 stands
    have unfinished : c.status ≠ .completed := of_decide_eq_false unfinished
    refine ⟨?_, (headed.resolve_left unfinished).resolve_left fun none => ?_⟩
    · unfold reopen
      split
      · nofun
      · exact unfinished
    · change c.next.isNone = false at goes
      rw [none] at goes
      cases goes

end Conversation

namespace Engine

variable {α : Type} {g : Graph} {c d : Conversation} {settings : Settings} {s : Situation}
  {past : List Exchange}

/-- The run of a node either asks the model about all that was said in a conversation that has been
left on its way, or what comes of it is on its way still. -/
theorem visit_pursues {heard : Prop} (formed : g.Formed)
    (pursues : c.Pursues g d (heard ∨ ∃ e ∈ past, e.1.Recites d)) (ready : c.Ready)
    (same : s.settings = settings) :
    (visit (g.nodeAt (c.next <|> c.current)) c.leavePause s).Follows
      (fun s => s.settings = settings) (fun _ _ => True) (fun past' result _ =>
        Conversation.Arrives
          (Conversation.Outlasts fun c' => c'.Pursues g d (heard ∨ ∃ e ∈ past', e.1.Recites d))
          (g.nodeAt (c.next <|> c.current)) result) past := by
  have visited : (visit (g.nodeAt (c.next <|> c.current)) c.leavePause s).Follows
      (fun s => s.settings = settings) (fun _ _ => True)
      (fun _ result _ => Visits (g.nodeAt (c.next <|> c.current)) c.leavePause result) past :=
    visit_follows ready (fun _ same => same) _ same
  have listened : (visit (g.nodeAt (c.next <|> c.current)) c.leavePause s).Follows
      (fun s => s.settings = settings) (fun _ _ => True) (fun past' result _ => c.WillAsk g →
        (∃ e ∈ past', Exchange.Hears c.messages e) ∨
          Unheard g (g.nodeAt (c.next <|> c.current)) c.leavePause result) past := by
    by_cases asks : c.WillAsk g
    · have listens := listens_visit formed (g.nodeAt_mem (c.next <|> c.current))
        asks.leavePause.1 asks.leavePause.2
      rw [Conversation.leavePause_messages] at listens
      exact ((listens past s).restrict fun _ _ => trivial).mono (fun _ _ obeys => obeys)
        fun _ _ _ holds _ => holds
    · exact (Interaction.follows_any _ past).mono (fun _ _ obeys => obeys)
        fun _ _ _ _ asks' => absurd asks' asks
  refine ((visited.and listened).grows).mono (fun _ _ _ => trivial) ?_
  rintro past' result s' ⟨grown, visits, listened⟩
  have more (earlier : heard ∨ ∃ e ∈ past, e.1.Recites d) : heard ∨ ∃ e ∈ past', e.1.Recites d :=
    earlier.imp_right fun ⟨e, member, recites⟩ => ⟨e, grown.subset member, recites⟩
  refine pursues.arrives more (ready.arrives visits) fun asks => ?_
  rcases listened asks with ⟨e, member, hears⟩ | unheard
  · exact .inl (.inr ⟨e, member, hears.recites pursues.said⟩)
  · exact .inr (asks.arrives formed rfl unheard)

/-- What is given back by work on a claimed conversation leaves it free. -/
theorem claiming_ends_given {id : String} {body : Engine (Except Failure α)}
    {P : α → Situation → Prop} (works : (body { s with claimed := id :: s.claimed }).Ends
      fun reply s' => ∀ a, reply = .ok a → P a (releasing id s')) :
    (claiming id body s).Ends fun reply s' => ∀ a, reply = .ok a → id ∉ s'.claimed ∧ P a s' := by
  unfold claiming
  by_cases busy : id ∈ s.claimed
  · rw [Activity.bind_of_done (tryClaim_busy busy)]
    exact fun a same => by cases same
  · rw [Activity.bind_of_done (tryClaim_free busy), if_pos rfl]
    apply Activity.meets_bind works
    exact fun reply s' given a same => ⟨by simp, given a same⟩

/-- Where a message is posted with success, nobody works on the conversation any more, and what this
has made of it is stored. -/
theorem post_leaves (id text : String) (s : Situation) : (post id text s).Ends fun reply s' =>
    ∀ d, reply = .ok d → id ∉ s'.claimed ∧ ∃ c, s.store.backing.get id = .ok (some c) ∧
      c.PostedTo s.flows text d ∧ s'.store.Keeps d ∧ s'.flows = s.flows := by
  apply claiming_ends_given
  apply Activity.meets_bind (load_ends_idle id { s with claimed := id :: s.claimed })
  rintro loaded s₁ ⟨idle, read⟩
  split
  · exact fun d same => by cases same
  next c =>
  have saves (d : Conversation) (posted : c.PostedTo s.flows text d) (s₂ : Situation)
      (flows : s₂.flows = s.flows) : (save d s₂).Ends fun reply s' => ∀ e, reply = .ok e →
        ∃ c, s.store.backing.get id = .ok (some c) ∧ c.PostedTo s.flows text e ∧
          (releasing id s').store.Keeps e ∧ (releasing id s').flows = s.flows := by
    apply Activity.meets_bind (write_ends_saving d s₂)
    rintro written _ ⟨rfl, put⟩
    split
    · exact fun e same => by cases same
    · intro e same
      obtain rfl : d = e := Except.ok.inj same
      exact ⟨c, read c rfl, posted, Store.keeps_of_put put.symm, flows⟩
  split
  · exact fun d same => by cases same
  split
  · exact fun d same => by cases same
  have stamps : (stamp s₁).Ends fun _ s₂ => s₂.flows = s.flows := idle.flows
  apply Activity.meets_bind stamps
  intro t s₂ flows
  by_cases needed : (c.push (.user text t) t.instant).needsRewind = true
  · rw [if_pos needed]
    apply Activity.meets_bind (graph_ends_known _ s₂)
    rintro found s₃ ⟨rfl, known⟩
    split
    · exact fun d same => by cases same
    · next g =>
      exact saves _ (.rewound rfl rfl t.instant needed (flows ▸ known g rfl)) s₃ flows
  · rw [if_neg needed]
    exact saves _ (.added rfl rfl t.instant (eq_false_of_ne_true needed)) s₂ flows

end Engine

end DialogueEngine
