import DialogueEngine.Proofs.Engine.Handoff
import DialogueEngine.Proofs.History.Draining

/-!
Pauses before a route is taken. What a completion has chosen is kept while its calls wait for
approval, whoever answers them and whatever is posted meanwhile; the next step then runs the process
again, which takes the route without asking anybody.
-/

namespace DialogueEngine

open Exchange (completionsIn)

/-! ## Conversations with a route to take -/

/-- A conversation is to leave a process by a route, once its calls have been answered. -/
structure Conversation.HeadsFor (id flow : String) (node : Node) (label : String)
    (c : Conversation) : Prop where
  named : c.id = id
  onFlow : c.flow = flow
  handoff : c.handoff = some label
  next : c.next = some node.id
  current : c.current = some node.id
  live : c.cancelled = false
  waits : c.status = if c.pending.isEmpty then .running else .awaitingApproval

namespace Conversation

variable {id flow label : String} {node : Node} {c : Conversation}

theorem durable_headsFor (id flow : String) (node : Node) (label : String) :
    Durable (HeadsFor id flow node label) := by
  refine .of_bare fun c c' same heads => ⟨?_, ?_, ?_, ?_, ?_, ?_, ?_⟩
  · exact (congrArg Conversation.id same :).trans heads.named
  · exact (congrArg Conversation.flow same :).trans heads.onFlow
  · exact (congrArg Conversation.handoff same :).trans heads.handoff
  · exact (congrArg Conversation.next same :).trans heads.next
  · exact (congrArg Conversation.current same :).trans heads.current
  · exact (congrArg Conversation.cancelled same :).trans heads.live
  · have status : c'.status = c.status := (congrArg Conversation.status same :)
    have pending : c'.pending.isEmpty = c.pending.isEmpty := by
      have bare : c'.pending.map ToolCall.bare = c.pending.map ToolCall.bare :=
        (congrArg Conversation.pending same :)
      rw [← List.isEmpty_map, bare, List.isEmpty_map]
    rw [status, pending]
    exact heads.waits

theorem HeadsFor.push (heads : c.HeadsFor id flow node label) (m : Message) (now : Instant) :
    (c.push m now).HeadsFor id flow node label :=
  ⟨heads.named, heads.onFlow, heads.handoff, heads.next, heads.current, heads.live, heads.waits⟩

/-- Neither is such a conversation completed, nor has it failed. -/
theorem HeadsFor.unfinished (heads : c.HeadsFor id flow node label) :
    c.status ≠ .completed ∧ c.status ≠ .error ∧ c.status ≠ .pausedDebug := by
  rw [heads.waits]
  split <;> exact ⟨nofun, nofun, nofun⟩

/-- No run goes on while calls wait. -/
theorem HeadsFor.stops (heads : c.HeadsFor id flow node label) (pending : c.pending ≠ [])
    {action : Action} {next : Option String} : StepResult.continues ⟨c, action, next⟩ = false := by
  have waiting : c.status = .awaitingApproval := by
    rw [heads.waits, List.isEmpty_eq_false_iff.2 pending]
    rfl
  simp [StepResult.continues, waiting]

theorem HeadsFor.reopen_eq (heads : c.HeadsFor id flow node label) : c.reopen = c :=
  if_neg fun halted => halted.elim heads.unfinished.1 heads.unfinished.2.1

theorem HeadsFor.withRecording (heads : c.HeadsFor id flow node label) (enabled : Bool)
    (now : Instant) : (c.withRecording enabled now).HeadsFor id flow node label := by
  have status : (c.withRecording enabled now).status = c.status := by
    simp [Conversation.withRecording, touch, heads.unfinished.2.2]
  exact ⟨heads.named, heads.onFlow, heads.handoff, heads.next, heads.current, heads.live,
    status.trans heads.waits⟩

/-- A call is answered. -/
theorem HeadsFor.resolved (heads : c.HeadsFor id flow node label) {call : String}
    {taken : ToolCall} {rest : Conversation} {now : Instant}
    (found : c.takeCall call now = some (taken, rest)) : rest.HeadsFor id flow node label := by
  obtain ⟨others, extracted, rfl⟩ := takeCall_spec found
  refine ⟨heads.named, heads.onFlow, heads.handoff, heads.next, heads.current, heads.live, ?_⟩
  have waiting : c.status = .awaitingApproval := by
    rw [heads.waits]
    cases pending : c.pending with
    | nil =>
      rw [pending] at extracted
      cases extracted
    | cons first later => rfl
  dsimp only
  by_cases none : others.isEmpty
  · rw [if_pos none, if_pos ⟨none, waiting⟩]
  · rw [if_neg none, if_neg fun all => none all.1, waiting]

end Conversation

/-- An operation that neither takes steps with a conversation nor cancels it, but posts to it,
decides about a call of it, or turns the recording of its steps on or off. -/
inductive Operation.Meanwhile (id : String) : Operation → Prop
  | post (text : String) : Meanwhile id (.post id text)
  | resolve (call : String) (decision : Decision) : Meanwhile id (.resolve id call decision)
  | setRecording (enabled : Bool) : Meanwhile id (.setRecording id enabled)
  | enableTrace : Meanwhile id (.enableTrace id)
  | resumeTrace : Meanwhile id (.resumeTrace id)

namespace Engine

variable {id flow label : String} {node : Node} {settings : Settings} {g : Graph}
  {c : Conversation} {s s' : Situation}

/-- The flow stays registered, nobody asks to cancel the conversation, and the store refuses
nothing. -/
structure Serene (settings : Settings) (id flow : String) (g : Graph) (s : Situation) : Prop where
  settings : s.settings = settings
  registered : s.flows.get? flow = some g
  calm : id ∉ s.cancelRequests
  store : s.store.Dependable fun _ => False

/-- Claims, events, cursors and the clock do not matter. -/
theorem Serene.of_same (serene : Serene settings id flow g s)
    (same : (s'.settings, s'.flows, s'.cancelRequests, s'.store) =
      (s.settings, s.flows, s.cancelRequests, s.store)) : Serene settings id flow g s' := by
  obtain ⟨settings, flows, requests, store⟩ :
      s'.settings = s.settings ∧ s'.flows = s.flows ∧ s'.cancelRequests = s.cancelRequests ∧
        s'.store = s.store := by
    simpa only [Prod.mk.injEq] using same
  exact ⟨settings.trans serene.settings, flows ▸ serene.registered, requests ▸ serene.calm,
    store ▸ serene.store⟩

theorem enduring_serene : Enduring (Serene settings id flow g) where
  refl := fun _ serene => serene
  trans := fun first second => second ∘ first
  published := fun _ _ _ serene => serene.of_same rfl
  ticked := fun _ serene => serene.of_same rfl

/-- What can be read of a conversation is to leave a process by a route. -/
structure Stands (settings : Settings) (id flow : String) (g : Graph) (node : Node)
    (label : String) (s : Situation) : Prop where
  serene : Serene settings id flow g s
  heads : ∀ c, s.store.backing.get id = .ok (some c) → c.HeadsFor id flow node label

theorem Stands.of_same (stands : Stands settings id flow g node label s)
    (same : (s'.settings, s'.flows, s'.cancelRequests, s'.store) =
      (s.settings, s.flows, s.cancelRequests, s.store)) :
    Stands settings id flow g node label s' := by
  refine ⟨stands.serene.of_same same, fun c found => stands.heads c ?_⟩
  have store : s'.store = s.store := congrArg (·.2.2.2) same
  exact store ▸ found

/-- A situation in which a conversation has been put that is to leave by a route. -/
theorem Stands.of_put (serene : Serene settings id flow g s)
    (heads : c.HeadsFor id flow node label) (put : HasPut c s s') :
    Stands settings id flow g node label s' := by
  have stored : s'.store = { s.store with backing := s.store.backing.put c } :=
    congrArg Situation.store put
  refine ⟨⟨?_, ?_, ?_, ?_⟩, fun c' found => ?_⟩
  · exact (congrArg Situation.settings put).trans serene.settings
  · have flows : s'.flows = s.flows := (congrArg Situation.flows put :)
    rw [flows]
    exact serene.registered
  · have requests : s'.cancelRequests = s.cancelRequests :=
      (congrArg Situation.cancelRequests put :)
    rw [requests]
    exact serene.calm
  · rw [stored]
    exact serene.store.of_put c
  · exact (put.keeps serene.store).holds (Conversation.durable_headsFor id flow node label) heads
      (heads.named.symm ▸ found)

/-! ## Operations meanwhile -/

theorem save_stands (serene : Serene settings id flow g s)
    (heads : c.HeadsFor id flow node label) :
    (save c s).Ends fun _ s' => Stands settings id flow g node label s' := by
  unfold save
  rw [Activity.bind_of_done (write_done serene.store c)]
  exact .of_put serene heads rfl

/-- What an operation leaves, while others keep calm, is to leave by the route as before. -/
def Bides (settings : Settings) (id flow : String) (g : Graph) (node : Node) (label : String)
    {α : Type} (x : Engine α) (s : Situation) : Prop :=
  (x s).Follows (Serene settings id flow g) (fun _ _ => True)
    (fun _ _ s' => Stands settings id flow g node label s') []

section Bides

variable {α : Type}

theorem bides_of_ends {x : Engine α}
    (ends : (x s).Ends fun _ s' => Stands settings id flow g node label s') :
    Bides settings id flow g node label x s := by
  obtain ⟨s', a, done, stands⟩ := ends.eq_done
  rw [Bides, done]
  exact stands

theorem bides_claiming (stands : Stands settings id flow g node label s)
    {rest : Conversation → Engine (Except Failure α)}
    (goesOn : ∀ c s', c.HeadsFor id flow node label → Stands settings id flow g node label s' →
      Bides settings id flow g node label (rest c) s') :
    Bides settings id flow g node label
      (claiming id do
        match ← load id with
        | .error f => return .error f
        | .ok c => rest c) s := by
  by_cases busy : id ∈ s.claimed
  · rw [Bides, claiming_busy _ busy]
    exact stands
  by_cases there : ∃ c, s.store.backing.get id = .ok (some c)
  · obtain ⟨c, stored⟩ := there
    have loaded : load id (seizing id s) = .done (seizing id s) (.ok c) :=
      load_found stands.serene.store stored
    refine .of_eq (claiming_found rest busy loaded) ?_
    have seized : Stands settings id flow g node label (seizing id s) := stands.of_same rfl
    apply (goesOn c _ (stands.heads c stored) seized).andThen
    intro past reply s' stands'
    exact stands'.of_same rfl
  · obtain ⟨f, failed⟩ := load_unfound (s := seizing id s) stands.serene.store
      fun c found => there ⟨c, found⟩
    exact .of_eq (claiming_unfound rest busy failed) (stands.of_same rfl)

theorem bides_setRecording (stands : Stands settings id flow g node label s) (enabled : Bool) :
    Bides settings id flow g node label (setRecording id enabled) s := by
  refine bides_claiming stands fun c s' heads stands => ?_
  obtain ⟨t, clock, ticks⟩ : ∃ t clock, now s' = .done { s' with clock } t := ⟨_, _, rfl⟩
  refine bides_of_ends ?_
  rw [Activity.bind_of_done ticks]
  exact save_stands (stands.serene.of_same rfl) (heads.withRecording enabled t)

theorem bides_post (stands : Stands settings id flow g node label s) (text : String) :
    Bides settings id flow g node label (post id text) s := by
  refine bides_claiming stands fun c s' heads stands => ?_
  split
  · exact stands
  split
  · exact stands
  obtain ⟨t, clock, ticks⟩ : ∃ t clock, stamp s' = .done { s' with clock } t := ⟨_, _, rfl⟩
  have pushed := heads.push (.user text t) t.instant
  have stays : (c.push (.user text t) t.instant).needsRewind = false := by
    simp [Conversation.needsRewind, pushed.next, pushed.unfinished.1]
  refine bides_of_ends ?_
  rw [Activity.bind_of_done ticks]
  split
  · next rewinds =>
    rw [stays] at rewinds
    cases rewinds
  · rw [pushed.reopen_eq]
    exact save_stands (stands.serene.of_same rfl) pushed

theorem bides_resolve (stands : Stands settings id flow g node label s) (call : String)
    (decision : Decision) :
    Bides settings id flow g node label (resolve id call decision) s := by
  have works : Bides settings id flow g node label
      (claiming id do
        match ← load id with
        | .error f => return .error f
        | .ok c => deciding id call decision c) s := by
    refine bides_claiming stands fun c s₁ heads stands₁ => ?_
    obtain ⟨t, clock, ticks⟩ : ∃ t clock, now s₁ = .done { s₁ with clock } t := ⟨_, _, rfl⟩
    have ticked : Stands settings id flow g node label { s₁ with clock } := stands₁.of_same rfl
    rw [Bides, deciding, Activity.bind_of_done ticks]
    cases found : c.takeCall call t with
    | none => exact ticked
    | some pair =>
      obtain ⟨taken, rest⟩ := pair
      have heads := heads.resolved found
      have answers {s₂ : Situation} (serene : Serene settings id flow g s₂) (result : ToolResult)
          (past : List Exchange) : (answering rest taken decision result s₂).Follows
            (Serene settings id flow g) (fun _ _ => True)
            (fun _ _ s' => Stands settings id flow g node label s') past := by
        obtain ⟨s', outcome, done, m, -, -, put⟩ :=
          (answering_leaves serene.store rest taken decision result).eq_done
        rw [done]
        exact .of_put serene (heads.push m m.createdAt) put
      dsimp only
      rw [Activity.bind_run]
      rcases decide_cases rest taken decision { s₁ with clock } with
        ⟨result, done⟩ | ⟨rfl, provider, tool, -, poses⟩
      · rw [done]
        exact answers ticked.serene result _
      · rw [poses]
        refine ⟨trivial, fun answer s₂ serene => ?_⟩
        have told : Serene settings id flow g { s₂ with
            published := s₂.published ++ [.toolEnd rest.id taken.name (ranResult answer)] } :=
          serene.of_same rfl
        exact answers told (ranResult answer) _
  exact works

/-- Turning the recording off forgets the cursor, which no conversation holds. -/
theorem bides_resumeTrace (stands : Stands settings id flow g node label s) :
    Bides settings id flow g node label (resumeTrace id) s := by
  have dropped : Stands settings id flow g node label { s with cursors := s.cursors.erase id } :=
    stands.of_same rfl
  exact bides_setRecording dropped false

end Bides

theorem perform_bides {op : Operation} (meanwhile : op.Meanwhile id)
    (stands : Stands settings id flow g node label s) :
    Bides settings id flow g node label op.perform s := by
  have gives {α : Type} {x : Engine (Except Failure α)} {f : α → Operation.Outcome}
      (bides : Bides settings id flow g node label x s) :
      Bides settings id flow g node label (do return (← x).map f) s :=
    Interaction.Follows.andThen bides fun _ _ _ stands => stands
  cases meanwhile with
  | post text => exact gives (bides_post stands text)
  | resolve call decision => exact gives (bides_resolve stands call decision)
  | setRecording enabled => exact gives (bides_setRecording stands enabled)
  | enableTrace => exact gives (bides_setRecording stands true)
  | resumeTrace => exact gives (bides_resumeTrace stands)

/-- What can happen to a conversation that waits, one thing after the other: such operations, each
answered somehow, and whatever others do that leaves the conversation alone. The flow stays
registered, no request to cancel the conversation is parked and the store refuses nothing. -/
inductive Biding (settings : Settings) (id flow : String) (g : Graph) (s : Situation) :
    Situation → Prop
  | here : Biding settings id flow g s s
  | others {s' s'' : Situation} (before : Biding settings id flow g s s')
      (serene : Serene settings id flow g s'')
      (same : s''.store.backing.get id = s'.store.backing.get id) :
      Biding settings id flow g s s''
  | carriedOut {s' s'' : Situation} {op : Operation} {outcome : Except Failure Operation.Outcome}
      (before : Biding settings id flow g s s') (meanwhile : op.Meanwhile id)
      (comes : (op.perform s').Comes (Serene settings id flow g) outcome s'') :
      Biding settings id flow g s s''

/-- Meanwhile the route is kept. -/
theorem Stands.bides (stands : Stands settings id flow g node label s)
    (biding : Biding settings id flow g s s') : Stands settings id flow g node label s' := by
  induction biding with
  | here => exact stands
  | others before serene same ih => exact ⟨serene, fun c found => ih.heads c (same ▸ found)⟩
  | carriedOut before meanwhile comes ih =>
    obtain ⟨-, stands⟩ := (perform_bides meanwhile ih).comes comes
    exact stands

/-! ## Steps where nobody asks to cancel -/

theorem takeCancel_calm (calm : id ∉ s.cancelRequests) : takeCancel id s = .done s false := by
  have none : s.cancelRequests.contains id = false := by simpa using calm
  have taken : takeCancel id s = .done (s.taking id) (s.cancelRequests.contains id) := rfl
  rw [taken, Situation.taking_of_not_mem calm, none]

theorem pickUpCancel_calm (calm : c.id ∉ s.cancelRequests) : pickUpCancel c s = .done s c := by
  unfold pickUpCancel
  rw [Activity.bind_of_done (takeCancel_calm calm)]
  rfl

/-- A step puts what its node has left. -/
theorem completeStep_puts (dependable : s.store.Dependable fun _ => False) (node : Node)
    (c : Conversation) (before : Option Json) (run : Visit) :
    (completeStep node c before run s).Ends fun o s' => ∃ noted now,
      o = ⟨c.conclude node run before noted now, run.action, node.next run.action⟩ ∧
      HasPut o.conversation s s' ∧
      s'.published = s.published ++ [.stepCompleted c.id node.id run.action] := by
  have ends (clock : Clock) (noted now : Instant) :
      (concluding (c.conclude node run before noted now) node run { s with clock }).Ends fun o s' =>
        ∃ noted now,
          o = ⟨c.conclude node run before noted now, run.action, node.next run.action⟩ ∧
          HasPut o.conversation s s' ∧
          s'.published = s.published ++ [.stepCompleted c.id node.id run.action] := by
    unfold concluding
    rw [Activity.bind_of_done (write_done (s := { s with clock }) dependable _)]
    exact ⟨noted, now, rfl, rfl, by rw [← c.conclude_id node run before noted now]⟩
  unfold completeStep
  cases before with
  | none => exact ends _ default _
  | some before => exact ends _ _ _

/-! ## Pauses -/

section Pausing

variable {spec : ProcessSpec} {p : TurnPlan}

/-- A route that is left to be taken is taken at once where it is offered. -/
theorem runProcess_routed
    (planned : TurnPlan.of s.settings node spec c = .ok p) (routed : c.handoff = some label)
    (offered : p.OffersLabel label) : runProcess node spec c s =
      .done s ({ c with handoff := none },
        .ok ⟨.edge label, .process p, .process (.handoff label 0)⟩) := by
  have looks : situation s = .done s s := rfl
  have offers : (p.handoffs.any fun route => Decidable.decide (route.label = label)) = true := by
    obtain ⟨route, member, named⟩ := offered
    exact List.any_eq_true.2 ⟨route, member, decide_eq_true named⟩
  have takes : runTurn p c s = .done s ({ c with handoff := none }, .ok (.handoff label 0)) := by
    unfold runTurn
    rw [routed, Option.filter_some, if_pos offers]
    rfl
  unfold runProcess
  rw [Activity.bind_of_done looks, planned]
  exact (Activity.bind_of_done takes).trans rfl

/-- The run of a process pauses for each completion some of whose calls have to wait. -/
theorem visit_pauses (serene : Serene settings id flow g s) (named : c.id = id)
    (live : c.cancelled = false) (kind : node.spec = .process spec)
    (planned : TurnPlan.of settings node spec c = .ok p) :
    (visit node c s).Follows (Serene settings id flow g) (fun _ _ => True)
      (fun past result s' => Serene settings id flow g s' ∧ ∀ completion ∈ completionsIn past,
        completion.toolCalls.filter p.gates ≠ [] → ∃ ended,
          PausesFor p c completion (result.1, ended) ∧ result.2 = ended.map fun outcome =>
            ⟨outcome.action, .process p, .process outcome⟩) [] := by
  have runs : visit node c = runProcess node spec c := by
    unfold visit
    rw [kind]
  obtain rfl := serene.settings
  by_cases routed : ∃ label, c.handoff = some label ∧ p.OffersLabel label
  · obtain ⟨label, routed, offered⟩ := routed
    rw [runs, runProcess_routed planned routed offered]
    exact ⟨serene, fun _ none => by cases none⟩
  · have fresh (label : String) (left : c.handoff = some label) (route : Handoff)
        (member : route ∈ p.handoffs) : route.label ≠ label :=
      fun same => routed ⟨label, left, route, member, same⟩
    have turn := runProcess_planned True planned (TurnPlan.handoffs_are_routes planned)
      (fun _ => live) (fun _ => named ▸ serene.calm) fun _ => fresh
    have quiet : (visit node c s).Follows _ _ _ [] :=
      follows_of_stays (stays_visit enduring_serene node c s s (fun serene => serene)) serene
    rw [runs] at quiet ⊢
    refine (((turn.restrict fun s' kept => ⟨kept.settings, fun _ => named ▸ kept.calm⟩).and
      quiet)).mono (fun _ _ _ => trivial) ?_
    rintro past ⟨c', result⟩ s' ⟨⟨ended, capping, same⟩, serene'⟩
    exact ⟨serene', fun completion member waits =>
      ⟨ended, capping.pauses trivial completion member waits, same⟩⟩

/-- A step has paused for calls that have to wait, and has left a route to be taken. -/
structure Awaits (settings : Settings) (id flow : String) (g : Graph) (node : Node)
    (label : String) (calls : List ToolCall) (o : StepResult) (s : Situation) : Prop where
  action : o.action = .toolCall
  pending : o.conversation.pending = calls
  stops : o.continues = false
  heads : o.conversation.HeadsFor id flow node label
  kept : s.store.Keeps o.conversation
  stands : Stands settings id flow g node label s

/-- What a pause leaves of the conversation is to leave by the route that was chosen. -/
theorem PausesFor.heads {completion : Completion} (node : Node)
    {result : Conversation × Except Failure TurnOutcome} (pauses : PausesFor p c completion result)
    (waits : completion.toolCalls.filter p.gates ≠ [])
    (chosen : p.chosen completion.toolCalls = some label) (named : c.id = id)
    (onFlow : c.flow = flow) (live : c.cancelled = false) (run : Visit)
    (again : run.action = .toolCall) (before : Option Json) (noted now : Instant) :
    let d := (result.1.arrive node false).conclude node run before noted now
    d.pending = completion.toolCalls.filter p.gates ∧ d.HeadsFor id flow node label := by
  obtain ⟨c', t, frame, cancelled, same⟩ := pauses.conversation
  have filled : (completion.toolCalls.filter p.gates).isEmpty = false :=
    List.isEmpty_eq_false_iff.2 waits
  have paused : result.1 = { c' with
      handoff := p.chosen completion.toolCalls
      pending := completion.toolCalls.filter p.gates
      status := .awaitingApproval
      updatedAt := t } := by
    rw [same, Conversation.pauseFor, if_neg (by rw [filled]; exact Bool.false_ne_true)]
  have next : node.next run.action = some node.id := by
    rw [again]
    rfl
  have waiting : (result.1.arrive node false).status = .awaitingApproval := by
    rw [Conversation.arrive_status, paused]
  have pending : (result.1.arrive node false).pending = completion.toolCalls.filter p.gates := by
    rw [Conversation.arrive_pending, paused]
  refine ⟨by rw [Conversation.conclude_pending, pending], ?_, ?_, ?_, ?_, ?_, ?_, ?_⟩
  · rw [Conversation.conclude_id, Conversation.arrive_id, paused]
    exact ((congrArg Conversation.id frame :) : c'.id = c.id).trans named
  · rw [Conversation.conclude_flow, Conversation.arrive_flow, paused]
    exact ((congrArg Conversation.flow frame :) : c'.flow = c.flow).trans onFlow
  · rw [Conversation.conclude_handoff, Conversation.arrive_handoff, paused]
    exact chosen
  · rw [Conversation.conclude_next, next]
  · rw [Conversation.conclude_current, Conversation.arrive_current]
  · rw [Conversation.conclude_cancelled, Conversation.arrive_cancelled, paused]
    exact cancelled.trans live
  · rw [Conversation.conclude_waiting waiting, Conversation.conclude_pending, pending, filled]
    rfl

/-- A step that runs a process waits for each completion some of whose calls have to. -/
theorem stepNode_awaits (serene : Serene settings id flow g s) (named : c.id = id)
    (onFlow : c.flow = flow) (live : c.cancelled = false) (kind : node.spec = .process spec)
    (planned : TurnPlan.of settings node spec c = .ok p) :
    (stepNode node c s).Follows (Serene settings id flow g) (fun _ _ => True)
      (fun past o s' => ∀ completion ∈ completionsIn past,
        completion.toolCalls.filter p.gates ≠ [] →
        ∀ label, p.chosen completion.toolCalls = some label →
          Awaits settings id flow g node label (completion.toolCalls.filter p.gates) o s') [] := by
  unfold stepNode
  dsimp only
  -- what leaving a pause can change makes no difference to what follows
  rw [Conversation.leavePause_eq]
  generalize c.leavePause.status = status, c.leavePause.lastError = lastError
  have tells : publish (.stepStarted c.id node.id) s = .done { s with
      published := s.published ++ [.stepStarted c.id node.id] } () := rfl
  generalize (if c.debugMode = true then _ else none) = before
  refine .of_eq (Activity.bind_of_done tells) ?_
  have told : Serene settings id flow g { s with
      published := s.published ++ [.stepStarted c.id node.id] } := serene.of_same rfl
  have visits := visit_pauses (c := { c with status, lastError }) told named live kind planned
  refine visits.andThen ?_
  rintro past ⟨c', result⟩ s₁ ⟨serene₁, pauses⟩
  have takes : takeCancel c'.id s₁ =
    .done (s₁.taking c'.id) (s₁.cancelRequests.contains c'.id) := rfl
  refine .of_eq (Activity.bind_of_done takes) ?_
  cases result with
  | ok run =>
    obtain ⟨s', o, done, noted, now, rfl, put, -⟩ := (completeStep_puts (s := s₁.taking c'.id)
      serene₁.store node (c'.arrive node (s₁.cancelRequests.contains c'.id)) before run).eq_done
    refine .of_eq done ?_
    intro completion member waits label chosen
    obtain ⟨ended, paused, same⟩ := pauses completion member waits
    obtain ⟨waiting, calls, rfl⟩ := paused.outcome
    obtain rfl : run = ⟨.toolCall, .process p, .process (.awaitingApproval waiting calls)⟩ :=
      Except.ok.inj same
    obtain ⟨pending, heads⟩ := paused.heads node waits chosen named onFlow live
      ⟨.toolCall, .process p, .process (.awaitingApproval waiting calls)⟩ rfl before noted now
    have own : c'.id = id := by simpa using heads.named
    have calm : s₁.cancelRequests.contains c'.id = false := by simpa [own] using serene₁.calm
    rw [calm] at put ⊢
    rw [Situation.taking_of_not_mem (own ▸ serene₁.calm)] at put
    exact ⟨rfl, pending, heads.stops (pending ▸ waits), heads, put.keeps serene₁.store,
      .of_put serene₁ heads put⟩
  | error f =>
    have unpaused : ∀ completion ∈ completionsIn past,
        ¬ completion.toolCalls.filter p.gates ≠ [] := by
      intro completion member waits
      obtain ⟨ended, paused, same⟩ := pauses completion member waits
      obtain ⟨waiting, calls, rfl⟩ := paused.outcome
      cases same
    have gives (c : Conversation) (s₂ : Situation) : (failStep c f s₂).Follows
        (Serene settings id flow g) (fun _ _ => True)
        (fun past o s' => ∀ completion ∈ completionsIn past,
          completion.toolCalls.filter p.gates ≠ [] →
          ∀ label, p.chosen completion.toolCalls = some label →
            Awaits settings id flow g node label (completion.toolCalls.filter p.gates) o s')
        past := by
      obtain ⟨s', o, done, -⟩ := (failStep_ends c f s₂).eq_done
      rw [done]
      exact fun completion member waits => absurd waits (unpaused completion member)
    cases before with
    | none => exact gives _ _
    | some before => exact gives _ _

theorem graph_registered (serene : Serene settings id flow g s) :
    graph flow s = .done s (.ok g) := by
  have looks : situation s = .done s s := rfl
  unfold graph
  rw [Activity.bind_of_done looks, serene.registered]
  rfl

/-- A step waits for each completion some of whose calls have to. -/
theorem advance_awaits (serene : Serene settings id flow g s) (named : c.id = id)
    (onFlow : c.flow = flow) (kind : (g.nodeAt (c.next <|> c.current)).spec = .process spec)
    (planned : TurnPlan.of settings (g.nodeAt (c.next <|> c.current)) spec c = .ok p) :
    (advance c s).Follows (Serene settings id flow g) (fun _ _ => True)
      (fun past o s' => ∀ completion ∈ completionsIn past,
        completion.toolCalls.filter p.gates ≠ [] →
        ∀ label, p.chosen completion.toolCalls = some label →
          Awaits settings id flow g (g.nodeAt (c.next <|> c.current)) label
            (completion.toolCalls.filter p.gates) o s') [] := by
  unfold advance
  rw [Activity.bind_of_done (pickUpCancel_calm (named.symm ▸ serene.calm))]
  split
  · exact fun _ none => by cases none
  split
  · exact fun _ none => by cases none
  split
  · exact fun _ none => by cases none
  · next live =>
    rw [onFlow, Activity.bind_of_done (graph_registered serene)]
    exact stepNode_awaits serene named onFlow (eq_false_of_ne_true live) kind planned

end Pausing

/-! ## Departures -/

/-- A step has run a node again, which has left by a route. -/
structure Departs (id : String) (node : Node) (label : String) (o : StepResult)
    (s s' : Situation) : Prop where
  action : o.action = .edge label
  way : ∃ way, node.successor? label = some way ∧ o.next = some way.target
  next : o.conversation.next = o.next
  current : o.conversation.current = some node.id
  unrouted : o.conversation.handoff = none
  ran : s'.starts id = s.starts id ++ [.stepStarted id node.id]
  kept : s'.store.Keeps o.conversation

theorem stepNode_departs (serene : Serene settings id flow g s)
    (heads : c.HeadsFor id flow node label) (offers : node.Offers settings label)
    (running : c.status = .running) :
    (stepNode node c s).Ends fun o s' => Departs id node label o s s' := by
  have here : c.leavePause = c := by
    unfold Conversation.leavePause
    rw [if_neg (by rw [running]; simp)]
  obtain ⟨spec, p, kind, planned, offered⟩ := offers.plan c
  rw [← serene.settings] at planned
  have tells : publish (.stepStarted c.id node.id) s = .done { s with
      published := s.published ++ [.stepStarted c.id node.id] } () := rfl
  have routed : visit node c { s with published := s.published ++ [.stepStarted c.id node.id] } =
      .done { s with published := s.published ++ [.stepStarted c.id node.id] }
        ({ c with handoff := none },
          .ok ⟨.edge label, .process p, .process (.handoff label 0)⟩) := by
    unfold visit
    rw [kind]
    exact runProcess_routed planned heads.handoff offered
  unfold stepNode
  rw [here]
  dsimp only
  generalize (if c.debugMode = true then some c.snapshot else none) = before
  rw [Activity.bind_of_done tells, Activity.bind_of_done routed]
  have takes : takeCancel c.id { s with
        published := s.published ++ [.stepStarted c.id node.id] } =
      .done { s with published := s.published ++ [.stepStarted c.id node.id] } false :=
    takeCancel_calm (heads.named.symm ▸ serene.calm)
  refine (congrArg (Interaction.Ends _) (Activity.bind_of_done takes)).mpr ?_
  refine (completeStep_puts (s := { s with
    published := s.published ++ [.stepStarted c.id node.id] }) serene.store node
      (Conversation.arrive { c with handoff := none } node false) before
      ⟨.edge label, .process p, .process (.handoff label 0)⟩).mono (fun _ asked => asked) ?_
  rintro o s' ⟨noted, now, rfl, put, published⟩
  obtain ⟨first, taken⟩ := offers.successor
  have leads : node.next (.edge label) = some first.target := by
    unfold Node.next
    rw [if_neg nofun, if_neg nofun, Action.text, taken]
  refine ⟨rfl, ⟨first, taken, leads⟩, ?_, ?_, ?_, ?_, ?_⟩
  · exact Conversation.conclude_next ..
  · rw [Conversation.conclude_current, Conversation.arrive_current]
  · rw [Conversation.conclude_handoff, Conversation.arrive_handoff]
  · rw [Situation.starts, published, Situation.starts]
    simp [Event.starts, heads.named]
  · exact put.keeps serene.store

/-- Once its calls have been answered the conversation leaves by the route, and nobody is asked. -/
theorem advance_departs (serene : Serene settings id flow g s)
    (heads : c.HeadsFor id flow node label) (formed : g.Formed) (member : node ∈ g.nodes)
    (offers : node.Offers settings label) (answered : c.pending = []) :
    (advance c s).Ends fun o s' => Departs id node label o s s' := by
  have running : c.status = .running := by
    rw [heads.waits, answered]
    rfl
  have place : g.nodeAt (c.next <|> c.current) = node := by
    rw [heads.next]
    exact g.nodeAt_self formed member
  unfold advance
  rw [Activity.bind_of_done (pickUpCancel_calm (heads.named.symm ▸ serene.calm))]
  rw [if_neg (by rw [running]; nofun), if_neg (by rw [running]; nofun),
    if_neg (by rw [heads.live]; nofun), heads.onFlow,
    Activity.bind_of_done (graph_registered serene)]
  dsimp only
  rw [place]
  exact stepNode_departs serene heads offers running

/-- The step after the last answer leaves by the route, and asks nobody. -/
theorem step_departs (stands : Stands settings id flow g node label s) (formed : g.Formed)
    (member : node ∈ g.nodes) (offers : node.Offers settings label) (free : id ∉ s.claimed)
    (found : s.store.backing.get id = .ok (some c)) (answered : c.pending = []) :
    (step id s).Ends fun reply s' => ∃ o, reply = .ok o ∧ Departs id node label o s s' := by
  have loaded : load id (seizing id s) = .done (seizing id s) (.ok c) :=
    load_found stands.serene.store found
  let advances : Conversation → Engine (Except Failure StepResult) :=
    fun c => do return .ok (← advance c)
  have taken : (advances c (seizing id s)).Ends fun reply s' =>
      ∃ o, reply = .ok o ∧ Departs id node label o (seizing id s) s' := by
    have serene : Serene settings id flow g (seizing id s) := stands.serene.of_same rfl
    apply Activity.meets_bind (advance_departs serene (stands.heads c found) formed member offers
      answered)
    exact fun o _ departs => ⟨o, rfl, departs⟩
  have opened : step id s =
      (advances c (seizing id s)).andThen fun reply s' => .done (releasing id s') reply :=
    claiming_found advances free loaded
  rw [opened]
  exact taken.andThen fun _ _ ⟨o, same, departs⟩ => ⟨o, same, { departs with }⟩

end Engine

end DialogueEngine
