import DialogueEngine.Proofs.Conversation.Placement
import DialogueEngine.Proofs.Engine.Chartered

/-!
Where a step goes on. A step that runs a node runs the one that its conversation names next, else
its current one, else the start; what it stores names the node that follows on the action, and none
where the step has failed.
-/

namespace DialogueEngine

open Situation (Still)

/-- Within its stretches a computation keeps to a relation that leaves an invariant true; if others
keep the invariant too, it holds wherever the state is given away, and at the end. -/
theorem Engine.meets_of_stays {α : Type} {R : Situation → Situation → Prop}
    {inv : Situation → Prop} {post : List Exchange → α → Situation → Prop} {past : List Exchange}
    {since : Situation} {x : Interaction Situation Question Answer α}
    (kept : ∀ s s', R s s' → inv s → inv s') (holds : inv since)
    (stays : x.Abides (fun _ _ => True) R (fun _ _ => True) (fun since _ s => R since s) since)
    (follows : x.Follows inv (fun _ _ => True) post past) :
    x.Meets inv (fun _ => True) fun a s => inv s ∧ ∃ past, post past a s := by
  induction x generalizing past since with
  | done s a => exact ⟨kept since s stays holds, past, follows⟩
  | ask s q resume ih =>
    obtain ⟨changed, -, goesOn⟩ := stays
    exact ⟨kept since s changed holds, trivial, fun answer s' holds' =>
      ih answer s' holds' (goesOn answer s' trivial) (follows.2 answer s' holds')⟩

namespace Engine

variable {c : Conversation} {g : Graph} {node : Node} {s s' : Situation}

/-- The node of a conversation has been run that it is to go on at. -/
structure Runs (g : Graph) (c : Conversation) (node : Node) (s s' : Situation) : Prop where
  member : node ∈ g.nodes
  place : node.id = (c.next <|> c.current).getD g.start.id
  starts : s'.starts c.id = s.starts c.id ++ [.stepStarted c.id node.id]

/-- How a step comes out that is taken with a conversation on a graph. -/
inductive Proceeds (g : Graph) (c : Conversation) (s : Situation) (o : StepResult)
    (s' : Situation) : Prop
  /-- No node is run. -/
  | rested (starts : s'.starts c.id = s.starts c.id) (next : o.conversation.next = c.next)
      (current : o.conversation.current = c.current)
  /-- A node is run without a failure, and what came of the conversation is stored. -/
  | ran (node : Node) (runs : Runs g c node s s') (sound : o.action ≠ .error)
      (next : node.Leads o.action o.conversation.next) (told : o.next = o.conversation.next)
      (named : o.conversation.id = c.id) (stored : s'.store.Keeps o.conversation)
  /-- A node is run and the step fails; this is stored unless it is refused. -/
  | failed (node : Node) (runs : Runs g c node s s') (action : o.action = .error)
      (next : o.conversation.next = none) (named : o.conversation.id = c.id)
      (stored : s'.store.Keeps o.conversation ∨ ∃ (s₁ : Situation) (f : Failure),
        (s₁.store.put o.conversation).1 = .error f ∧ s'.store.backing = s₁.store.backing)

/-- The run of a node has been told of, and the settings are as they were. -/
def Underway (c : Conversation) (node : Node) (s s' : Situation) : Prop :=
  s'.settings = s.settings ∧ s'.starts c.id = s.starts c.id ++ [.stepStarted c.id node.id]

theorem still_starts (id : String) :
    Still fun s s' => s'.settings = s.settings ∧ s'.starts id = s.starts id where
  refl _ := ⟨rfl, rfl⟩
  trans first second := ⟨second.1.trans first.1, second.2.trans first.2⟩
  published s _ other := ⟨rfl, Situation.starts_of_core (Situation.core_publish other s) id⟩
  ticked _ := ⟨rfl, rfl⟩

/-- A run of a node that does not fail ends with another action than a failure. -/
def Sound : Conversation × Except Failure Visit → Prop
  | (_, .ok run) => run.action ≠ .error
  | (_, .error _) => True

theorem fallbackAction_sound (node : Node) : node.fallbackAction ≠ .error := by
  unfold Node.fallbackAction
  split <;> nofun

theorem sound_runProcess (node : Node) (spec : ProcessSpec) (c : Conversation) :
    Activity.Yields (fun _ => True) (runProcess node spec c) Sound := by
  unfold runProcess
  refine (Activity.Yields.always situation).bind fun s _ => ?_
  cases TurnPlan.of s.settings node spec c with
  | error f => exact .pure trivial
  | ok plan =>
    refine (Activity.Yields.always (runTurn plan c)).bind fun result _ => ?_
    obtain ⟨c', result⟩ := result
    cases result with
    | error f => exact .pure trivial
    | ok outcome =>
      have spoken : outcome.action ≠ .error := by cases outcome <;> nofun
      exact .pure spoken

theorem sound_runToolProvider (node : Node) (spec : ProviderSpec) (c : Conversation) :
    Activity.Yields (fun _ => True) (runToolProvider node spec c) Sound := by
  unfold runToolProvider
  cases spec.require node.id with
  | error f => exact .pure trivial
  | ok provider =>
    refine (Activity.Yields.always (ask _)).bind fun revision _ => ?_
    refine (Activity.Yields.always (fullListing _)).bind fun found _ => ?_
    split
    · exact .pure trivial
    · exact .pure (fallbackAction_sound node)
    · exact (Activity.Yields.always now).bind fun _ _ => .pure (fallbackAction_sound node)

theorem sound_visit (node : Node) (c : Conversation) :
    Activity.Yields (fun _ => True) (visit node c) Sound := by
  unfold visit
  split
  · exact (Activity.Yields.always now).bind fun _ _ => .pure (fallbackAction_sound node)
  · exact sound_runProcess node _ c
  · exact sound_runToolProvider node _ c
  · exact (Activity.Yields.always now).bind fun _ _ => .pure nofun

/-- What becomes of a conversation that it stands within the graph, as the conversation that it was
does. -/
structure Follows (g : Graph) (c d : Conversation) : Prop where
  id : d.id = c.id
  flow : d.flow = c.flow
  within : d.Within g

theorem follows_of_continues {d : Conversation} (continues : c.Continues d) (within : d.Within g) :
    Follows g c d :=
  ⟨continues.1.id, continues.1.flow, within⟩

/-- Where a step is given up after its node was run. -/
theorem failStep_proceeds {c' : Conversation} (runs : Runs g c node s s') (follows : Follows g c c')
    (f : Failure) :
    (failStep c' f s').Ends fun o s'' => Proceeds g c s o s'' ∧ Follows g c o.conversation := by
  refine (failStep_ends c' f s').mono (fun _ asked => asked) ?_
  rintro o s'' ⟨now, rfl, same⟩
  have starts : s''.starts c.id = s'.starts c.id := Situation.starts_of_core same c.id
  refine ⟨.failed node ⟨runs.member, runs.place, starts.trans runs.starts⟩ rfl rfl follows.id ?_,
    follows.id, follows.flow, follows.within.halted rfl rfl⟩
  have kept := Situation.backing_of_core same
  rcases Store.put_cases (c'.giveUp f now) s'.store with ⟨-, stored⟩ | ⟨⟨cause, refused⟩, -, left⟩
  · exact .inl (stored.congr (congrArg _ kept))
  · exact .inr ⟨s', cause, refused, kept.trans left⟩

theorem completeStep_proceeds {d : Conversation} {run : Visit} (runs : Runs g c node s s')
    (sound : run.action ≠ .error) (before : Option Json)
    (follows : ∀ noted now, Follows g c (d.conclude node run before noted now)) :
    (completeStep node d before run s').Ends fun o s'' =>
      Proceeds g c s o s'' ∧ Follows g c o.conversation := by
  refine (completeStep_ends node d before run s').mono (fun _ asked => asked) ?_
  rintro o s'' ⟨noted, now, concludes⟩
  have own := follows noted now
  cases concludes with
  | saved written same =>
    have starts : s''.starts c.id = s'.starts c.id := Situation.starts_of_core same c.id
    have next := d.conclude_next node run before noted now
    refine ⟨.ran node ⟨runs.member, runs.place, starts.trans runs.starts⟩ sound ?_ next.symm own.id
      ((Store.keeps_of_put written).congr (congrArg _ (Situation.backing_of_core same))), own⟩
    rw [next]
    exact node.leads_next sound
  | @refused _ f refused later same =>
    have starts : s''.starts c.id = s'.starts c.id := Situation.starts_of_core same c.id
    refine ⟨.failed node ⟨runs.member, runs.place, starts.trans runs.starts⟩ rfl rfl own.id ?_,
      own.id, own.flow, own.within.halted rfl rfl⟩
    have kept := Situation.backing_of_core same
    rcases Store.put_cases ((d.conclude node run before noted now).giveUp f later)
      (s'.saving (d.conclude node run before noted now)).store with
      ⟨-, stored⟩ | ⟨⟨cause, refused⟩, -, left⟩
    · exact .inl (stored.congr (congrArg _ kept))
    · exact .inr ⟨s'.saving (d.conclude node run before noted now), cause, refused,
        kept.trans left⟩

/-- The run of a node that is under way comes to its end. -/
theorem visit_proceeds (ready : c.Ready) (node : Node) (underway : Underway c node s s') :
    (visit node c.leavePause s').Meets (Underway c node s) (fun _ => True) fun result s'' =>
      (Underway c node s s'' ∧ Visits node c.leavePause result) ∧ Sound result := by
  have kept (s₁ s₂ : Situation)
      (still : s₂.settings = s₁.settings ∧ s₂.starts c.id = s₁.starts c.id)
      (underway : Underway c node s s₁) : Underway c node s s₂ :=
    ⟨still.1.trans underway.1, still.2.trans underway.2⟩
  have stays := stays_visit (still_starts c.id) node c.leavePause s' s' ⟨rfl, rfl⟩
  have visits : (visit node c.leavePause s').Follows (Underway c node s) (fun _ _ => True)
      (fun _ result _ => Visits node c.leavePause result) [] :=
    visit_follows ready (fun _ holds => holds.1) node underway
  refine ((meets_of_stays kept underway stays visits).and_also (sound_visit node _ s')).mono
    (fun _ asked => asked) ?_
  rintro result s'' ⟨⟨underway', -, visited⟩, sound⟩
  exact ⟨⟨underway', visited⟩, sound⟩

theorem stepNode_proceeds (ready : c.Ready) (within : c.Within g) (formed : g.Formed)
    (member : node ∈ g.nodes) (place : node.id = (c.next <|> c.current).getD g.start.id)
    (settings : s'.settings = s.settings) (starts : s'.starts c.id = s.starts c.id) :
    (stepNode node c s').Meets (Underway c node s) (fun _ => True) fun o s'' =>
      Proceeds g c s o s'' ∧ Follows g c o.conversation := by
  have publishes : (publish (.stepStarted c.leavePause.id node.id) s').Ends fun _ s'' =>
      Underway c node s s'' := by
    refine ⟨settings, ?_⟩
    rw [← starts]
    simp [Situation.starts, Event.starts, Conversation.leavePause_id]
  unfold stepNode
  dsimp only
  generalize (if c.leavePause.debugMode = true then some c.leavePause.snapshot else none) = before
  apply Activity.meets_bind publishes.meets
  intro _ s₁ underway
  apply Activity.meets_bind (visit_proceeds ready node underway)
  rintro ⟨c', result⟩ s₂ ⟨⟨underway, visits⟩, sound⟩
  have continues := ready.arrives visits
  have arrives := within.arrives formed member visits
  apply Activity.meets_bind (takeCancel_ends c'.id s₂).meets
  rintro cancel _ ⟨rfl, -⟩
  have runs : Runs g c node s (s₂.taking c'.id) := ⟨member, place, underway.2⟩
  cases result with
  | ok run =>
    refine (completeStep_proceeds (d := c'.arrive node cancel) runs sound before
      fun noted now => ?_).meets
    exact follows_of_continues (continues cancel before noted now) (arrives cancel before noted now)
  | error f =>
    have follows (before : Option Json) (noted : Instant) :
        Follows g c ((c'.arrive node cancel).noteFailure node before f noted) :=
      follows_of_continues (continues cancel before noted) (arrives cancel before noted)
    cases before with
    | none => exact (failStep_proceeds runs (follows none default) f).meets
    | some before =>
      dsimp only
      apply Activity.meets_bind (now_ends _).meets
      intro noted s₃ same
      have runs' : Runs g c node s s₃ :=
        ⟨member, place, (Situation.starts_of_core same c.id).trans runs.starts⟩
      exact (failStep_proceeds runs' (follows (some before) noted) f).meets

theorem pickUpCancel_flows (c : Conversation) (s : Situation) :
    (pickUpCancel c s).Ends fun _ s' => s'.flows = s.flows := by
  apply Activity.meets_bind (takeCancel_ends c.id s)
  rintro cancel _ ⟨rfl, -⟩
  split
  · have stamps : (now (s.taking c.id)).Ends fun _ s' => s'.flows = s.flows := rfl
    apply Activity.meets_bind stamps
    intro now s₁ flows
    apply Activity.meets_bind (write_ends_saving _ s₁)
    rintro _ _ ⟨rfl, -⟩
    exact flows
  · exact rfl

theorem graph_of_known {flow : String} (known : s.flows.get? flow = some g) :
    graph flow s = .done s (.ok g) := by
  have looks : situation s = .done s s := rfl
  unfold graph
  rw [Activity.bind_of_done looks, known]
  rfl

/-- A step with a conversation that stands within its graph goes on where that says. -/
theorem advance_proceeds (known : s'.flows.get? c.flow = some g) (formed : g.Formed)
    (within : c.Within g) (settings : s'.settings = s.settings)
    (starts : s'.starts c.id = s.starts c.id) :
    (advance c s').Meets (Underway c (g.nodeAt (c.next <|> c.current)) s) (fun _ => True)
      fun o s'' => Proceeds g c s o s'' ∧ Follows g c o.conversation := by
  apply Activity.meets_bind
    ((pickUpCancel_ends c s').meets.and_also (pickUpCancel_flows c s').meets)
  rintro c₁ s₁ ⟨picked, flows⟩
  -- Whether or not a request is picked up, the conversation stands where it stood.
  obtain ⟨follows, next, current, settings₁, starts₁⟩ : Follows g c c₁ ∧ c₁.next = c.next ∧
      c₁.current = c.current ∧ s₁.settings = s'.settings ∧ s₁.starts c.id = s'.starts c.id := by
    rcases picked with ⟨rfl, same, -⟩ | ⟨now, rfl, -, same⟩
    · exact ⟨⟨rfl, rfl, within⟩, rfl, rfl, (Situation.settings_of_core same :),
        (Situation.starts_of_core same _ :)⟩
    · exact ⟨⟨rfl, rfl, within.of_same rfl rfl⟩, rfl, rfl, (Situation.settings_of_core same :),
        (Situation.starts_of_core same _ :)⟩
  split
  · exact ⟨.rested (starts₁.trans starts) next current, follows⟩
  next unpaused =>
  split
  · exact ⟨.rested (starts₁.trans starts) next current, follows⟩
  next unfinished =>
  split
  · exact ⟨.rested (starts₁.trans starts) next current, follows⟩
  next going =>
  obtain rfl : c₁ = c := by
    rcases picked with ⟨same, -⟩ | ⟨now, rfl, -⟩
    · exact same
    · exact absurd rfl going
  have ready : c₁.Ready := ⟨unpaused, unfinished, by simpa using going⟩
  have finds : graph c₁.flow s₁ = .done s₁ (.ok g) := graph_of_known (by rw [flows]; exact known)
  rw [Activity.bind_of_done finds]
  exact stepNode_proceeds ready within formed (g.nodeAt_mem _) within.nodeAt_id
    (settings₁.trans settings) (starts₁.trans starts)

theorem Proceeds.releasing {o : StepResult} (proceeds : Proceeds g c s o s') (id : String) :
    Proceeds g c s o (releasing id s') := by
  cases proceeds with
  | rested starts next current => exact .rested starts next current
  | ran node runs sound next told named stored =>
    exact .ran node ⟨runs.member, runs.place, runs.starts⟩ sound next told named stored
  | failed node runs action next named stored =>
    exact .failed node ⟨runs.member, runs.place, runs.starts⟩ action next named stored

/-- A step with a stored conversation goes on where what is stored says, unless it is refused or
cannot be read. -/
theorem step_proceeds {id : String} (found : s.store.backing.get id = .ok (some c))
    (named : c.id = id) (known : s.flows.get? c.flow = some g) (formed : g.Formed)
    (within : c.Within g) :
    (step id s).Meets (Underway c (g.nodeAt (c.next <|> c.current)) s) (fun _ => True)
      fun reply s' => (∃ f, reply = .error f ∧ s'.starts id = s.starts id) ∨
        ∃ o, reply = .ok o ∧ Proceeds g c s o s' ∧ Follows g c o.conversation := by
  subst named
  by_cases busy : c.id ∈ s.claimed
  · unfold step
    rw [claiming_busy _ busy]
    exact .inl ⟨_, rfl, rfl⟩
  refine claiming_free_meets busy ?_
  apply Activity.meets_bind ((load_ends_core c.id _).meets.and_also (load_ends_idle c.id _).meets)
  rintro loaded s₁ ⟨⟨same, read, -⟩, idle, -⟩
  have starts : s₁.starts c.id = s.starts c.id := (Situation.starts_of_core same c.id :)
  split
  · exact .inl ⟨_, rfl, starts⟩
  · next c' =>
    obtain rfl : c' = c := by simpa [found] using (read c' rfl).symm
    have known₁ : s₁.flows.get? c'.flow = some g := by
      rw [idle.flows]
      exact known
    apply Activity.meets_bind (advance_proceeds (s := s) known₁ formed within idle.settings starts)
    rintro o s₂ ⟨proceeds, follows⟩
    exact .inr ⟨o, rfl, proceeds.releasing c'.id, follows⟩

end Engine

end DialogueEngine
