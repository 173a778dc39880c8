import DialogueEngine.Proofs.Conversation.Placement
import DialogueEngine.Proofs.Engine.Approval
import DialogueEngine.Proofs.History.Chartering

/-!
What conversations keep to within the graph of their flow. What every operation keeps true of a
conversation with regard to the graph on which it runs, is true of all that can be read, whatever
has happened, as long as no flow that conversations have been started on is registered again.
-/

namespace DialogueEngine

variable {history : List Happening} {scene : Scene} {flows : Table Graph} {s₀ s s' : Situation}
  {c : Conversation} {flow : String}

/-- Conversations have been started on a flow, or were there before. -/
def InUse (s₀ : Situation) (history : List Happening) (flow : String) : Prop :=
  (∃ id c, s₀.store.backing.get id = .ok (some c) ∧ c.flow = flow) ∨
    ∃ chosen message outcome s,
      .ended (.operation (.start chosen flow message)) (.ok outcome) s ∈ history

theorem InUse.mono {later : List Happening} (used : InUse s₀ history flow)
    (grown : history ⊆ later) : InUse s₀ later flow :=
  used.imp_right fun ⟨chosen, message, outcome, s, ended⟩ =>
    ⟨chosen, message, outcome, s, grown ended⟩

/-- Where nothing is stored and nothing has happened, no flow is in use. -/
theorem not_inUse_nil (new : s₀.store.IsNew) : ¬ InUse s₀ [] flow := by
  rintro (⟨id, c, found, -⟩ | ⟨chosen, message, outcome, s, ended⟩)
  · exact new.holds (fun _ => False) id c found
  · cases ended

/-! ## Starting and registering -/

/-- A conversation is started at once, and nothing is stored unless that succeeds. -/
theorem Engine.start_stores (chosen : Option String) (flow : String) (message : Option String)
    (s : Situation) : (start chosen flow message s).Ends fun reply s' =>
      (∃ c, reply = .ok c) ∨ s'.store.backing = s.store.backing := by
  have saves (c : Conversation) (s₁ : Situation) (same : s₁.store.backing = s.store.backing) :
      (save c s₁).Ends fun reply s' =>
        (∃ c, reply = .ok c) ∨ s'.store.backing = s.store.backing := by
    apply Activity.meets_bind (write_ends_saving c s₁)
    rintro written _ ⟨rfl, put⟩
    split
    · exact .inr ((Store.refused_of_put put.symm).2.trans same)
    · exact .inl ⟨c, rfl⟩
  apply Activity.meets_bind (graph_ends flow s)
  intro found s₁ unchanged
  obtain rfl : s = s₁ := unchanged.symm
  split
  · exact .inr rfl
  extract_lets begins
  have begin (id : String) (s₁ : Situation) (same : s₁.store.backing = s.store.backing) :
      (begins id s₁).Ends fun reply s' =>
        (∃ c, reply = .ok c) ∨ s'.store.backing = s.store.backing := by
    dsimp only [begins]
    split
    · exact .inr same
    refine claiming_ends (fun s₂ store _ => .inr (by rw [store, same])) fun _ s₂ store _ => ?_
    apply Activity.meets_bind (read_ends_idle id s₂)
    rintro kept s₃ ⟨idle, -⟩
    have same₃ : s₃.store.backing = s.store.backing := by rw [idle.backing, store, same]
    split
    · exact .inr same₃
    · exact .inr same₃
    have looks : (situation s₃).Ends fun _ s' => s'.store.backing = s.store.backing := same₃
    apply Activity.meets_bind looks
    intro seen s₃ same₃
    have ticks : (now s₃).Ends fun _ s' => s'.store.backing = s.store.backing := same₃
    apply Activity.meets_bind ticks
    intro now s₄ same₄
    split
    · exact saves _ s₄ same₄
    · have stamps : (stamp s₄).Ends fun _ s' => s'.store.backing = s.store.backing := same₄
      apply Activity.meets_bind stamps
      intro t s₅ same₅
      exact saves _ s₅ same₅
  clear_value begins
  cases chosen with
  | some id => exact begin id s rfl
  | none => exact begin s.clock.tick.1.id { s with clock := s.clock.tick.2 } rfl

theorem Undertaking.start_stores (chosen : Option String) (flow : String)
    (message : Option String) (s : Situation) :
    ((Undertaking.operation (.start chosen flow message)).perform s).Ends fun reply s' =>
      (∃ outcome, reply = .ok outcome) ∨
        (∃ f, reply = .error f) ∧ s'.store.backing = s.store.backing := by
  apply Activity.meets_bind (Engine.start_stores chosen flow message s)
  rintro reply s' stores
  cases reply with
  | error f =>
    have unstored := stores.resolve_left fun ⟨c, same⟩ => by cases same
    exact .inr ⟨⟨f, rfl⟩, unstored⟩
  | ok c => exact .inl ⟨.conversation c, rfl⟩

namespace Undertaking

variable {f : AuthoredFlow} {flow : String}

/-- Registering a flow leaves the others alone, and all if it cannot be converted. -/
theorem registering_other (other : ∀ g, f.toGraph = .ok g → f.id ≠ flow) :
    (registering f s).flows.get? flow = s.flows.get? flow := by
  unfold registering
  split
  · rfl
  · next g converted => rw [Table.get?_insert, if_neg (other g converted)]

theorem registering_formed (formed : ∀ flow g, s.flows.get? flow = some g → g.Formed)
    (flow : String) (g : Graph) (known : (registering f s).flows.get? flow = some g) :
    g.Formed := by
  unfold registering at known
  split at known
  · exact formed flow g known
  next g' converted =>
  rw [Table.get?_insert] at known
  split at known
  · obtain rfl := Option.some.inj known
    exact Graph.formed_of_toGraph converted
  · exact formed flow g known

end Undertaking

/-! ## Footings -/

/-- What is kept true of conversations with regard to the graph that they run on. -/
structure Footing where
  settings : Settings
  keeps : Graph → Conversation → Prop
  fresh (g : Graph) (id flow : String) (now : Instant) (debugMode : Bool) :
    keeps g { Conversation.fresh id flow now with debugMode }
  durable (g : Graph) : Conversation.Durable (keeps g)
  amends {g : Graph} {c c' : Conversation} (kept : keeps g c) (amended : c.Amends c') : keeps g c'
  rewinds {g : Graph} {c : Conversation} {m : Message} (kept : keeps g c) (now : Instant)
    (needed : (c.push m now).needsRewind = true) : keeps g ((c.push m now).rewind g).reopen
  visits {g : Graph} {c : Conversation} {s : Situation} {past : List Exchange} (formed : g.Formed)
    (kept : keeps g c) (ready : c.Ready) (same : s.settings = settings) :
    (Engine.visit (g.nodeAt (c.next <|> c.current)) c.leavePause s).Follows
      (fun s => s.settings = settings) (fun _ _ => True)
      (fun _ result _ =>
        Conversation.Arrives (keeps g) (g.nodeAt (c.next <|> c.current)) result) past

namespace Footing

variable (F : Footing)

/-- A conversation is on its footing in the graph that its flow is registered as. -/
def Holds (flows : Table Graph) (c : Conversation) : Prop :=
  ∃ g, flows.get? c.flow = some g ∧ g.Formed ∧ F.keeps g c

theorem durable_holds (flows : Table Graph) : Conversation.Durable (F.Holds flows) := by
  rintro c c' ⟨g, known, formed, kept⟩ read
  have onFlow : Conversation.Durable fun d => d.flow = c.flow :=
    .of_bare fun d d' same onFlow =>
      ((congrArg Conversation.flow same :) : d'.flow = d.flow).trans onFlow
  exact ⟨g, (onFlow c c' rfl read) ▸ known, formed, F.durable g c c' kept read⟩

/-- A conversation is on its footing, and on a flow that will not be registered again. -/
structure Settles (s₀ : Situation) (history : List Happening) (s : Situation) (c : Conversation) :
    Prop where
  placed : F.Holds s.flows c
  used : InUse s₀ history c.flow

variable {F}

theorem Settles.mono {later : List Happening} (settles : F.Settles s₀ history s c)
    (grown : history ⊆ later) (same : s'.flows.get? c.flow = s.flows.get? c.flow) :
    F.Settles s₀ later s' c where
  placed := by
    rw [Holds, same]
    exact settles.placed
  used := settles.used.mono grown

variable (F) in
theorem durable_settles (s₀ : Situation) (history : List Happening) (s : Situation) :
    Conversation.Durable (F.Settles s₀ history s) := by
  intro c c' settles read
  have onFlow : Conversation.Durable fun d => d.flow = c.flow :=
    .of_bare fun d d' same onFlow =>
      ((congrArg Conversation.flow same :) : d'.flow = d.flow).trans onFlow
  exact ⟨F.durable_holds s.flows c c' settles.placed read,
    (onFlow c c' rfl read).symm ▸ settles.used⟩

variable (F) in
theorem of_amends {id : String} {flow : Option String} {c' : Conversation}
    (kept : c.id = id ∧ flow = some c.flow ∧ F.Holds flows c) (amended : c.Amends c') :
    c'.id = id ∧ flow = some c'.flow ∧ F.Holds flows c' := by
  obtain ⟨named, onFlow, g, known, formed, kept⟩ := kept
  have grown := amended.continues.1
  exact ⟨grown.id.trans named, onFlow.trans (congrArg some grown.flow.symm), g,
    grown.flow ▸ known, formed, F.amends kept amended⟩

end Footing

/-! ## The charter -/

/-- What is stored of a conversation is on its footing in the graph that its flow is registered as.
Others leave that registration alone. -/
def Charter.footed (F : Footing) (id : String) (flow : Option String) (flows : Table Graph) :
    Charter where
  id
  law s := s.settings = F.settings ∧ ∀ f, flow = some f → s.flows.get? f = flows.get? f
  keeps _ c := c.id = id ∧ flow = some c.flow ∧ F.Holds flows c
  asks _ _ := True
  approves := True
  named kept := kept.1
  lawful holds same flows :=
    ⟨same.trans holds.1, fun f used => (congrArg (·.get? f) flows).trans (holds.2 f used)⟩
  later kept _ := kept
  amends kept amended _ := F.of_amends kept amended
  lost kept _ _ f now := F.of_amends kept (.givenUp f now)
  rewinds {_ c s g m} kept holds found _ now needed := by
    obtain ⟨named, onFlow, g', known, formed, kept⟩ := kept
    obtain rfl : g = g' := Option.some.inj (found.symm.trans ((holds.2 _ onFlow).trans known))
    have grown := (Conversation.continues_rewound c m now g).1
    exact ⟨grown.id.trans named, onFlow.trans (congrArg some grown.flow.symm), g,
      grown.flow ▸ known, formed, F.rewinds kept now needed⟩
  visits {past c s₀ s g} kept ready before found holds := by
    obtain ⟨named, onFlow, g', known, formed, kept⟩ := kept
    obtain rfl : g = g' := Option.some.inj (found.symm.trans ((before.2 _ onFlow).trans known))
    have visited : (Engine.visit (g.nodeAt (c.next <|> c.current)) c.leavePause s).Follows
        (fun s => s.settings = F.settings) (fun _ _ => True)
        (fun _ result _ => Engine.Visits (g.nodeAt (c.next <|> c.current)) c.leavePause result)
        past := Engine.visit_follows ready (fun _ same => same) _ holds.1
    refine ((visited.and (F.visits formed kept ready holds.1)).restrict fun _ law => law.1).mono
      (fun _ _ _ => trivial) fun _ result _ ⟨visited, stands⟩ => ?_
    refine ((ready.arrives visited).and stands).mono fun c' ⟨grown, kept'⟩ => ?_
    exact .of_amends (fun _ kept amended => F.of_amends kept amended) ⟨grown.1.id.trans named,
      onFlow.trans (congrArg some grown.1.flow.symm), g, grown.1.flow ▸ known, formed, kept'⟩
  approving _ _ := trivial

/-- The flow of the conversation that an undertaking is about, as far as it is known where the
undertaking is begun. -/
def Undertaking.flow? (id : String) (s : Situation) : Undertaking → Option String
  | .operation (.start _ flow _) => some flow
  | .stepWith c => some c.flow
  | .operation _ | .registration _ =>
    match s.store.backing.get id with
    | .ok (some c) => some c.flow
    | _ => none

/-- Conversations keep the flow that they were on, and what it is registered as. -/
def Chartering.footed (F : Footing) (s₀ : Situation) : Chartering where
  charter _ s u id := .footed F id (u.flow? id s) s.flows
  inv history s :=
    (s.settings = F.settings ∧ ∀ flow g, s.flows.get? flow = some g → g.Formed) ∧
    s.store.Holds (F.Settles s₀ history s) ∧ ∀ c, GivenBack history c → F.Settles s₀ history s c
  named _ _ _ _ := rfl

namespace Chartering

variable {F : Footing} {admits : List Happening → Situation → Undertaking → Prop}
  (once : ∀ history s f g, admits history s (.registration f) → f.toGraph = .ok g →
    ¬ InUse s₀ history f.id)
  (handed : ∀ history s c, admits history s (.stepWith c) →
    GivenBack history c ∨ F.Settles s₀ history s c)

include handed in
/-- Whatever is begun about a conversation, its flow is in use, unless it is only just started. -/
theorem Issue.flow_used {before during : List Happening} {u : Undertaking} {id : String}
    {s₁ : Situation} {past : List Exchange}
    (issue : (footed F s₀).Issue admits before during u id s₁ past)
    (known : u.flow? id s₁ = some flow) :
    InUse s₀ before flow ∨ ∃ chosen message, u = .operation (.start chosen flow message) := by
  obtain ⟨-, stored, given⟩ := issue.holds
  have read (same : (match s₁.store.backing.get id with
      | .ok (some c) => some c.flow
      | _ => none) = some flow) : InUse s₀ before flow := by
    split at same
    · next c found =>
      obtain rfl := Option.some.inj same
      exact (stored id c found).used
    · cases same
  cases u with
  | registration f => exact .inl (read known)
  | stepWith c =>
    obtain rfl : c.flow = flow := Option.some.inj known
    exact .inl ((handed before s₁ c issue.admitted).elim (fun back => (given c back).used)
      fun settled => settled.used)
  | operation op =>
    cases op with
    | start chosen flow' message =>
      obtain rfl : flow' = flow := Option.some.inj known
      exact .inr ⟨chosen, message, rfl⟩
    | _ => exact .inl (read known)

include handed in
/-- What satisfies the charter of a stretch is settled, unless the stretch is a start that fails. -/
theorem Stretch.settles {o h : Happening} {u : Undertaking} {ch : Charter} {s₁ : Situation}
    {past : List Exchange}
    (stretch : (footed F s₀).Stretch admits (history ++ [o]) o h u ch s₁ past) :
    (∀ c, ch.keeps past c → F.Settles s₀ (history ++ [o, h]) h.now c) ∨
      h.now.store.backing = o.now.store.backing ∧ ∃ f s, h = .ended u (.error f) s := by
  obtain ⟨before, during, id, cut, rfl, issue⟩ := stretch.issued
  have flows : h.now.flows = o.now.flows := stretch.confines.flows
  have placed (c : Conversation) (kept : (Charter.footed F id (u.flow? id s₁)
      s₁.flows).keeps past c) : F.Holds h.now.flows c := by
    obtain ⟨-, onFlow, stands⟩ := kept
    rw [Footing.Holds, flows, stretch.law.2 _ onFlow]
    exact stands
  have earlier : before ⊆ history ++ [o, h] := by
    have whole : history ++ [o, h] = before ++ .began u s₁ :: (during ++ [h]) := by
      simpa using congrArg (· ++ [h]) cut
    rw [whole]
    exact List.subset_append_left before _
  by_cases starts : ∃ chosen flow message, u = .operation (.start chosen flow message)
  · obtain ⟨chosen, flow, message, rfl⟩ := starts
    obtain ⟨s', reply, performed, stores⟩ :=
      (Undertaking.start_stores chosen flow message s₁).eq_done
    obtain ⟨rfl, rfl⟩ := stretch.whole.resolve_right fun waits => waits s' reply performed
    rw [performed] at placed ⊢
    rcases stores with ⟨outcome, rfl⟩ | ⟨⟨f, rfl⟩, same⟩
    · refine .inl fun c kept => ⟨placed c kept, .inr ⟨chosen, message, outcome, s', ?_⟩⟩
      obtain rfl : flow = c.flow := Option.some.inj kept.2.1
      simp [Work.happening]
    · exact .inr ⟨same, f, s', rfl⟩
  · left
    intro c kept
    refine ⟨placed c kept, ?_⟩
    rcases issue.flow_used handed kept.2.1 with used | ⟨chosen, message, same⟩
    · exact used.mono earlier
    · exact absurd ⟨chosen, c.flow, message, same⟩ starts

include once handed in
theorem upheld_footed (settings : s₀.settings = F.settings)
    (formed : ∀ flow g, s₀.flows.get? flow = some g → g.Formed)
    (stored : s₀.store.Holds (F.Holds s₀.flows)) :
    (footed F s₀).Upheld admits s₀ where
  start := by
    refine ⟨⟨settings, formed⟩, fun id c found => ⟨stored id c found, .inl ⟨id, c, found, rfl⟩⟩, ?_⟩
    rintro c ⟨u, outcome, s, ended, -⟩
    cases ended
  issues {history s u id} holds sound admitted subject := by
    obtain ⟨⟨settings, formed⟩, stored, given⟩ := holds
    refine ⟨⟨settings, fun _ _ => rfl⟩, ?_, fun _ => trivial⟩
    have read (c : Conversation) (found : s.store.backing.get id = .ok (some c)) :
        c.id = id ∧ (match s.store.backing.get id with
          | .ok (some c) => some c.flow
          | _ => none) = some c.flow ∧ F.Holds s.flows c := by
      exact ⟨sound.id_eq found, by rw [found], (stored id c found).placed⟩
    cases u with
    | registration f => cases subject
    | stepWith c =>
      have settled : F.Settles s₀ history s c :=
        (handed history s c admitted).elim (given c) fun settled => settled
      exact ⟨Option.some.inj subject, rfl, settled.placed⟩
    | operation op =>
      cases op with
      | start chosen flow message =>
        exact fun missing g known now debugMode =>
          ⟨rfl, rfl, g, known, formed flow g known, F.fresh g id flow now debugMode⟩
      | _ => exact read
  registers {history f s s' reply} holds admitted done := by
    obtain ⟨⟨settings, formed⟩, stored, given⟩ := holds
    obtain rfl := Undertaking.registering_of_perform done
    -- Only the flow is registered anew, and that is not in use.
    have others (flow : String) (used : InUse s₀ history flow) :
        (Undertaking.registering f s).flows.get? flow = s.flows.get? flow := by
      apply Undertaking.registering_other
      rintro g converted rfl
      exact once history s f g admitted converted used
    have settles (c : Conversation) (settled : F.Settles s₀ history s c) :
        F.Settles s₀ (history ++ [.began (.registration f) s,
          .ended (.registration f) reply (Undertaking.registering f s)])
          (Undertaking.registering f s) c :=
      settled.mono (List.subset_append_left history _) (others c.flow settled.used)
    obtain ⟨stored', given'⟩ := spread_registered given settles stored done
    have settings' := (Undertaking.registering_settings f s).trans settings
    refine ⟨⟨⟨settings', Undertaking.registering_formed formed⟩, stored', given'⟩,
      fun u ch s₁ past issued waits law => ?_⟩
    · obtain ⟨before, during, id, rfl, rfl, issue⟩ := issued
      refine ⟨(Undertaking.registering_settings f s).trans law.1, fun flow known => ?_⟩
      rcases issue.flow_used handed known with used | ⟨chosen, message, rfl⟩
      · exact (others flow (used.mono (List.subset_append_left before _))).trans (law.2 flow known)
      · obtain ⟨s', reply, performed, -⟩ :=
          (Undertaking.start_stores chosen flow message s₁).eq_done
        exact absurd performed (waits s' reply)
  works {history o h u ch s₁ past} holds stretch := by
    obtain ⟨⟨settings, formed⟩, stored, given⟩ := holds
    have flows : h.now.flows = o.now.flows := stretch.confines.flows
    have settles (c : Conversation) (settled : F.Settles s₀ history o.now c) :
        F.Settles s₀ (history ++ [o, h]) h.now c :=
      settled.mono (List.subset_append_left history _) (congrArg (·.get? c.flow) flows)
    refine ⟨⟨stretch.confines.settings.trans settings, flows ▸ formed⟩, ?_⟩
    rcases stretch.settles handed with settled | ⟨same, f, s, rfl⟩
    · exact stretch.spreads given settles stored (F.durable_settles _ _ _) settled
    · refine ⟨fun id c found => settles c (stored id c (same ▸ found)), fun c gives => ?_⟩
      rcases gives.of_append stretch.opens with old | ⟨u', outcome, s, ended, -⟩
      · exact settles c (given c old)
      · cases ended

end Chartering

end DialogueEngine
