import DialogueEngine.Proofs.Engine.Hearing
import DialogueEngine.Proofs.History.Handoff

/-!
Posted messages are heard. A conversation that has been left on its way to the model is completed
only after the model has been asked about all that was said in it, or after the user has spoken
again, whoever works on it and whatever is done meanwhile; and where a process has spoken, a posted
message leaves its conversation on its way, unless the way on bypasses the model.
-/

namespace DialogueEngine

variable {history front rest : List Happening} {scene : Scene} {s₀ s s' : Situation}
  {g : Graph} {c d : Conversation} {h o : Happening}

/-- In a history the model was asked about all that is said in a conversation. -/
def HeardIn (d : Conversation) (history : List Happening) : Prop :=
  ∃ u q reply s, Happening.answered u q reply s ∈ history ∧ q.Recites d

theorem HeardIn.mono {later : List Happening} (heard : HeardIn d history)
    (grown : history ⊆ later) : HeardIn d later := by
  obtain ⟨u, q, reply, s, member, recites⟩ := heard
  exact ⟨u, q, reply, s, grown member, recites⟩

/-- Whoever brings the conversation along for a step has it from there, or has been given it back
since. -/
def BroughtAlong (d : Conversation) (history : List Happening) : Prop :=
  ∀ mid c s more, history = mid ++ .began (.stepWith c) s :: more → c.id = d.id →
    c = d ∨ GivenBack mid c

theorem BroughtAlong.of_prefix {later : List Happening} (brought : BroughtAlong d later)
    (grown : history <+: later) : BroughtAlong d history := by
  obtain ⟨more, rfl⟩ := grown
  rintro mid c s more' rfl named
  exact brought mid c s (more' ++ more) (by simp) named

/-- At the end of a history a conversation is left on its way to the model: an undertaking has
stopped, nobody works on the conversation, and it is stored and on a flow that is in use. -/
structure LeftBehind (s₀ : Situation) (g : Graph) (d : Conversation) (front : List Happening)
    (h : Happening) : Prop where
  last : front.getLast? = some h
  stops : ∃ u, h.Stops u
  sound : h.now.store.Sound
  settings : h.now.settings = s₀.settings
  free : d.id ∉ h.now.claimed
  stored : h.now.store.Keeps d
  used : InUse s₀ front d.flow
  known : h.now.flows.get? d.flow = some g
  formed : g.Formed
  asks : d.WillAsk g

/-! ## The charter -/

/-- What is kept of the conversation that was left, since the undertaking was begun. -/
def Charter.pursuing (settings : Settings) (formed : g.Formed) (d : Conversation) (id : String)
    (since heard : Prop) : Charter where
  id
  law s := s.settings = settings ∧ (since → s.flows.get? d.flow = some g)
  keeps past c := c.id = id ∧ (since → c.Pursues g d (heard ∨ ∃ e ∈ past, e.1.Recites d))
  asks _ _ := True
  approves := True
  named kept := kept.1
  lawful holds same flows :=
    ⟨same.trans holds.1, fun begun => (congrArg (·.get? d.flow) flows).trans (holds.2 begun)⟩
  later kept grown := ⟨kept.1, fun begun => (kept.2 begun).mono fun earlier =>
    earlier.imp_right fun ⟨e, member, recites⟩ => ⟨e, grown.subset member, recites⟩⟩
  amends kept amended goesOn :=
    ⟨amended.continues.1.id.trans kept.1, fun begun => (kept.2 begun).amends amended goesOn⟩
  lost kept holds missing f now := by
    refine ⟨kept.1, fun begun => ?_⟩
    have known := holds.2 begun
    rw [← (kept.2 begun).flow, missing] at known
    cases known
  rewinds {_ c _ g' m} kept _ _ role now _ :=
    ⟨(Conversation.continues_rewound c m now g').1.id.trans kept.1,
      fun begun => (kept.2 begun).rewound g' role now⟩
  visits {past c s₁ s g'} kept ready before found holds := by
    have visited : (Engine.visit (g'.nodeAt (c.next <|> c.current)) c.leavePause s).Follows
        (fun s => s.settings = settings) (fun _ _ => True)
        (fun _ result _ => Engine.Visits (g'.nodeAt (c.next <|> c.current)) c.leavePause result)
        past := Engine.visit_follows ready (fun _ same => same) _ holds.1
    have named {result : Conversation × Except Failure Visit}
        (visits : Engine.Visits (g'.nodeAt (c.next <|> c.current)) c.leavePause result) :
        Conversation.Arrives (Conversation.Outlasts fun c' => c'.id = id)
          (g'.nodeAt (c.next <|> c.current)) result :=
      (ready.arrives visits).mono fun c' continues =>
        .of_amends (fun _ named amended => amended.continues.1.id.trans named)
          (continues.1.id.trans kept.1)
    by_cases begun : since
    · have pursues := kept.2 begun
      have known := before.2 begun
      rw [← pursues.flow, found] at known
      obtain rfl := Option.some.inj known
      have goes := Engine.visit_pursues formed pursues ready holds.1
      refine ((visited.and goes).restrict fun _ law => law.1).mono (fun _ _ _ => trivial) ?_
      rintro past' result _ ⟨visits, arrives⟩
      exact ((named visits).and arrives).mono fun c' ⟨⟨named, given⟩, pursues, lost⟩ =>
        ⟨⟨named, fun _ => pursues⟩, fun f now => ⟨given f now, fun _ => lost f now⟩⟩
    · refine (visited.restrict fun _ law => law.1).mono (fun _ _ _ => trivial) ?_
      exact fun past' result _ visits => (named visits).mono fun c' ⟨named, given⟩ =>
        ⟨⟨named, fun since => absurd since begun⟩, fun f now =>
          ⟨given f now, fun since => absurd since begun⟩⟩
  approving _ _ := trivial

/-- What bears the id of the conversation that was left is what has become of it. -/
def Sequel (g : Graph) (d : Conversation) (rest : List Happening) (c : Conversation) : Prop :=
  c.id = d.id → c.Pursues g d (HeardIn d rest)

theorem Sequel.mono {later : List Happening} (sequel : Sequel g d rest c) (grown : rest ⊆ later) :
    Sequel g d later c :=
  fun named => (sequel named).mono (·.mono grown)

theorem durable_sequel (g : Graph) (d : Conversation) (rest : List Happening) :
    Conversation.Durable (Sequel g d rest) :=
  .of_bare fun c c' same sequel named => by
    have own : c'.id = c.id := (congrArg Conversation.id same :)
    exact (sequel (own ▸ named)).of_bare same

/-- What has become of a conversation since it was left, in the situation that `rest` has led to. -/
structure Followed (g : Graph) (d : Conversation) (rest : List Happening) (s : Situation) :
    Prop where
  known : s.flows.get? d.flow = some g
  there : (s.store.backing.entry d.id).isSome
  sequels (brought : BroughtAlong d rest) :
    s.store.Holds (Sequel g d rest) ∧ ∀ c, GivenBack rest c → Sequel g d rest c

/-- Whatever is undertaken about the conversation since then pursues it. -/
def Chartering.pursuing (settings : Settings) (formed : g.Formed) (d : Conversation)
    (front : List Happening) : Chartering where
  charter history s u id := .pursuing settings formed d id
    (id = d.id ∧ ∃ rest, history = front ++ rest ∧ BroughtAlong d (rest ++ [.began u s]))
    (∃ rest, history = front ++ rest ∧ HeardIn d rest)
  inv history s := s.settings = settings ∧ ∀ rest, history = front ++ rest → Followed g d rest s
  named _ _ _ _ := rfl

namespace LeftBehind

variable {e : Happening} (left : LeftBehind s₀ g d front e)
include left

theorem followed : Followed g d [] e.now where
  known := left.known
  there := left.stored.isSome
  sequels _ := by
    refine ⟨fun id c found named => ?_, fun c gives => ?_⟩
    · obtain rfl : d.id = id := named.symm.trans (left.sound.id_eq found)
      exact .of_bare (left.stored.bare found) (.refl left.asks)
    · obtain ⟨u, outcome, s, member, -⟩ := gives
      cases member

/-- Two more entries, of which the first opens a stretch, come after the conversation was left, or
it is left with the second. -/
theorem split (opens : ∀ u, ¬ o.Stops u) (cut : history ++ [o, h] = front ++ rest) :
    (rest = [] ∧ h = e) ∨ ∃ rest', history = front ++ rest' ∧ rest = rest' ++ [o, h] := by
  have last := left.last
  rcases List.eq_nil_or_concat rest with rfl | ⟨rest, x, rfl⟩
  · rw [← List.append_nil front, ← cut] at last
    exact .inl ⟨rfl, by simpa using last⟩
  have cut' : (history ++ [o]) ++ [h] = (front ++ rest) ++ [x] := by simpa using cut
  obtain ⟨same, rfl⟩ := List.append_singleton_inj.1 cut'
  rcases List.eq_nil_or_concat rest with rfl | ⟨rest, y, rfl⟩
  · obtain ⟨u, stops⟩ := left.stops
    rw [← List.append_nil front, ← same] at last
    obtain rfl : o = e := by simpa using last
    exact absurd stops (opens u)
  · have same' : history ++ [o] = (front ++ rest) ++ [y] := by simpa using same
    obtain ⟨rfl, rfl⟩ := List.append_singleton_inj.1 same'
    exact .inr ⟨rest, rfl, by simp⟩

/-- Whoever has held the conversation ever since beginning has begun after it was left. -/
theorem begun {before during : List Happening} {u : Undertaking} {s₁ : Situation}
    (cut : front ++ rest = before ++ .began u s₁ :: during)
    (claimed : ∀ h ∈ during, d.id ∈ h.now.claimed) :
    ∃ mid, before = front ++ mid ∧ rest = mid ++ .began u s₁ :: during := by
  rcases List.append_eq_append_iff.1 cut with ⟨mid, rfl, rfl⟩ | ⟨mid, rfl, same⟩
  · exact ⟨mid, rfl, rfl⟩
  have last := left.last
  cases mid with
  | nil => exact ⟨[], by simp, by simpa using same.symm⟩
  | cons first mid =>
    obtain ⟨rfl, rfl⟩ := List.cons.inj same
    rcases List.eq_nil_or_concat mid with rfl | ⟨mid, y, rfl⟩
    · obtain ⟨u', stops⟩ := left.stops
      obtain rfl : Happening.began u s₁ = e := by simpa using last
      exact stops.elim
    · have apart : before ++ .began u s₁ :: (mid ++ [y]) =
          (before ++ .began u s₁ :: mid) ++ [y] := by simp
      rw [List.concat_eq_append, apart, List.getLast?_concat] at last
      obtain rfl : y = e := Option.some.inj last
      exact absurd (claimed y (by simp)) left.free

end LeftBehind

namespace Chartering

variable {admits : List Happening → Situation → Undertaking → Prop}

section Pursuing

variable {e : Happening} (left : LeftBehind s₀ g d front e)
include left

/-- What the charter of a stretch keeps is a sequel, once the stretch is in the history. -/
theorem Stretch.sequel {u : Undertaking} {ch : Charter} {s₁ : Situation} {past : List Exchange}
    (stretch : (pursuing s₀.settings left.formed d front).Stretch admits
      ((front ++ rest) ++ [o]) o h u ch s₁ past) (brought : BroughtAlong d (rest ++ [o, h])) (kept : ch.keeps past c) :
    Sequel g d (rest ++ [o, h]) c := by
  intro named
  obtain ⟨before, during, id, cut, rfl, issue⟩ := stretch.issued
  obtain ⟨own, pursues⟩ := kept
  obtain rfl : d.id = id := named.symm.trans own
  have cut' : front ++ (rest ++ [o]) = before ++ .began u s₁ :: during := by
    rw [← List.append_assoc]
    exact cut
  obtain ⟨mid, rfl, same⟩ := left.begun cut' issue.claimed
  have begun : mid ++ .began u s₁ :: during <+: rest ++ [o, h] := by
    rw [← same]
    exact ⟨[h], by simp⟩
  have along : BroughtAlong d (mid ++ [.began u s₁]) :=
    brought.of_prefix (List.IsPrefix.trans ⟨during, by simp⟩ begun)
  refine (pursues ⟨rfl, mid, rfl, along⟩).mono fun heard => ?_
  rcases heard with ⟨mid', same', heard⟩ | ⟨x, member, recites⟩
  · obtain rfl := List.append_cancel_left same'
    exact heard.mono fun x inside => begun.subset (List.mem_append_left _ inside)
  · obtain ⟨s, inside⟩ := issue.answered x member
    exact ⟨u, x.1, x.2, s, begun.subset (List.mem_append_right _ (List.mem_cons_of_mem _ inside)),
      recites⟩

theorem upheld_pursuing
    (once : ∀ history s f g, admits history s (.registration f) → f.toGraph = .ok g →
      ¬ InUse s₀ history f.id) :
    (pursuing s₀.settings left.formed d front).Upheld admits s₀ where
  start := by
    refine ⟨rfl, fun rest cut => ?_⟩
    have last := left.last
    obtain ⟨rfl, -⟩ := List.append_eq_nil_iff.1 cut.symm
    cases last
  issues {history s u id} holds sound admitted subject := by
    obtain ⟨settings, since⟩ := holds
    refine ⟨⟨settings, fun ⟨_, rest, cut, _⟩ => (since rest cut).known⟩, ?_, fun _ => trivial⟩
    have keeps (c : Conversation) (own : c.id = id)
        (sequel : ∀ rest, history = front ++ rest → BroughtAlong d (rest ++ [.began u s]) →
          Sequel g d rest c) :
        ((pursuing s₀.settings left.formed d front).charter history s u id).keeps [] c :=
      ⟨own, fun ⟨same, rest, cut, brought⟩ =>
        (sequel rest cut brought (own.trans same)).mono fun heard => .inl ⟨rest, cut, heard⟩⟩
    have read (c : Conversation) (found : s.store.backing.get id = .ok (some c)) :
        ((pursuing s₀.settings left.formed d front).charter history s u id).keeps [] c :=
      keeps c (sound.id_eq found) fun rest cut brought =>
        ((since rest cut).sequels (brought.of_prefix (List.prefix_append _ _))).1 id c found
    cases u with
    | registration f => cases subject
    | stepWith c =>
      refine keeps c (Option.some.inj subject) fun rest cut brought named => ?_
      rcases brought rest c s [] rfl named with rfl | given
      · exact .refl left.asks
      · have along := brought.of_prefix (List.prefix_append _ _)
        exact ((since rest cut).sequels along).2 c given named
    | operation op =>
      cases op with
      | start chosen flow message =>
        intro missing g' known now debugMode
        refine ⟨rfl, fun ⟨same, rest, cut, _⟩ => ?_⟩
        -- What has been left is there, so that nothing is started in its place.
        have missing' : s.store.backing.get id = .ok none := missing
        have there := (since rest cut).there
        rw [← same, Backing.entry_eq_none missing'] at there
        cases there
      | _ => exact read
  registers {history f s s' reply} holds admitted done := by
    obtain ⟨settings, since⟩ := holds
    obtain rfl := Undertaking.registering_of_perform done
    have settings' := (Undertaking.registering_settings f s).trans settings
    -- Only the flow is registered anew, and the one that the conversation is on is in use.
    have other (used : InUse s₀ history d.flow) :
        (Undertaking.registering f s).flows.get? d.flow = s.flows.get? d.flow := by
      apply Undertaking.registering_other
      rintro g' converted same
      exact once history s f g' admitted converted (same ▸ used)
    refine ⟨⟨settings', fun rest cut => ?_⟩, fun u ch s₁ past issued waits law => ?_⟩
    · rcases left.split (o := .began (.registration f) s) (fun _ stops => stops) cut
        with ⟨rfl, rfl⟩ | ⟨rest, rfl, rfl⟩
      · exact left.followed
      have followed := since rest rfl
      refine ⟨(other (left.used.mono (List.subset_append_left _ _))).trans followed.known, ?_,
        fun brought => ?_⟩
      · rw [(Undertaking.registering_rests f s d.id).entry]
        exact followed.there
      · obtain ⟨stored, given⟩ := followed.sequels (brought.of_prefix (List.prefix_append _ _))
        exact spread_registered given (fun c sequel => sequel.mono (List.subset_append_left _ _))
          stored done
    · obtain ⟨before, during, id, rfl, rfl, issue⟩ := issued
      refine ⟨(Undertaking.registering_settings f s).trans law.1, fun begun => ?_⟩
      have used : InUse s₀ (before ++ .began u s₁ :: during) d.flow := by
        obtain ⟨-, rest, rfl, -⟩ := begun
        exact left.used.mono fun x member => by simp [member]
      exact (other used).trans (law.2 begun)
  works {history o h u ch s₁ past} holds stretch := by
    obtain ⟨settings, since⟩ := holds
    refine ⟨stretch.confines.settings.trans settings, fun rest cut => ?_⟩
    rcases left.split stretch.opens cut with ⟨rfl, rfl⟩ | ⟨rest, rfl, rfl⟩
    · exact left.followed
    have followed := since rest rfl
    refine ⟨(congrArg (·.get? d.flow) stretch.confines.flows).trans followed.known,
      stretch.confines.isSome followed.there, fun brought => ?_⟩
    obtain ⟨stored, given⟩ := followed.sequels (brought.of_prefix (List.prefix_append _ _))
    exact stretch.spreads given (fun c sequel => sequel.mono (List.subset_append_left _ _)) stored
      (durable_sequel g d _) fun c kept => stretch.sequel left brought kept

end Pursuing

/-! ## Posts -/

variable {text : String} {ch : Charter} {s₁ : Situation} {past : List Exchange}

/-- What comes of a post that succeeds: it is done at once, and its conversation is free then. -/
theorem Stretch.posted {C : Chartering} {id : String}
    (stretch : C.Stretch admits front o (.ended (.operation (.post id text))
      (.ok (.conversation d)) s) (.operation (.post id text)) ch s₁ past) :
    o = .began (.operation (.post id text)) s₁ ∧ id ∉ s.claimed ∧ ∃ c,
      s₁.store.backing.get id = .ok (some c) ∧ c.PostedTo s₁.flows text d ∧
      s.store.Keeps d ∧ s.flows = s₁.flows := by
  have leaves : ((Undertaking.operation (.post id text)).perform s₁).Ends fun reply s' =>
      ∀ d, reply = .ok (.conversation d) → id ∉ s'.claimed ∧ ∃ c,
        s₁.store.backing.get id = .ok (some c) ∧ c.PostedTo s₁.flows text d ∧
        s'.store.Keeps d ∧ s'.flows = s₁.flows := by
    apply Activity.meets_bind (Engine.post_leaves id text s₁)
    intro reply s' leaves d same
    cases reply with
    | error f => cases same
    | ok d' =>
      cases same
      exact leaves d rfl
  obtain ⟨s', reply, performed, leaves⟩ := leaves.eq_done
  obtain ⟨began, ended⟩ := stretch.whole.resolve_right fun waits => waits s' reply performed
  rw [performed] at ended
  obtain ⟨-, rfl, rfl⟩ := Happening.ended.inj ended
  exact ⟨began, leaves d rfl⟩

/-- A conversation that a message has been posted in is left behind, if it is on its way. -/
theorem Stretch.leaves {id : String}
    (stretch : (footed (.bound s₀.settings) s₀).Stretch admits front o
      (.ended (.operation (.post id text)) (.ok (.conversation d)) s)
      (.operation (.post id text)) ch s₁ past) (sound : s.store.Sound) :
    d.id = id ∧ ∃ c g, s₁.store.backing.get id = .ok (some c) ∧ c.PostedTo s₁.flows text d ∧
      s₁.flows.get? c.flow = some g ∧ g.Formed ∧ c.Bound s₀.settings g ∧
      (d.WillAsk g → LeftBehind s₀ g d
        (front ++ [.ended (.operation (.post id text)) (.ok (.conversation d)) s])
        (.ended (.operation (.post id text)) (.ok (.conversation d)) s)) := by
  obtain ⟨rfl, free, c, found, posted, kept, flows⟩ := stretch.posted
  have settings : s.settings = s₁.settings := stretch.confines.settings
  have returned := stretch.returns _ s rfl (.conversation d) d rfl rfl
  obtain ⟨before, during, id', rfl, rfl, issue⟩ := stretch.issued
  obtain rfl : id = id' := Option.some.inj issue.subject
  obtain ⟨rfl, onFlow, -⟩ := returned
  obtain ⟨⟨settings₁, -⟩, stored, -⟩ := issue.holds
  obtain ⟨⟨g, known, formed, bound⟩, used⟩ := stored d.id c found
  have same : c.flow = d.flow := by simpa [Undertaking.flow?, found] using onFlow
  refine ⟨rfl, c, g, found, posted, known, formed, bound, fun asks => ?_⟩
  exact {
    last := List.getLast?_concat
    stops := ⟨_, rfl⟩
    sound
    settings := settings.trans settings₁
    free
    stored := kept
    used := same ▸ used.mono fun x member => by simp [member]
    known := by
      rw [Happening.now, flows, ← same]
      exact known
    formed
    asks }

end Chartering

/-! ## What has happened -/

theorem Work.happening_ne_answered (u u' : Undertaking) (q : Question) (reply : Answer q)
    (s : Situation) (x : Work) : x.happening u' ≠ .answered u q reply s := by
  cases x <;> nofun

/-- Where all that is begun uses the store, nobody brings a conversation along. -/
theorem BroughtAlong.of_usesStore {admits : List Happening → Situation → Undertaking → Prop}
    (stored : ∀ history s u, admits history s u → u.UsesStore)
    (unfolds : Unfolds admits s₀ history scene) (later : rest ⊆ history) :
    BroughtAlong d rest := by
  rintro mid c s more rfl -
  have began : Happening.began (.stepWith c) s ∈ history := later (by simp)
  obtain ⟨earlier, admitted⟩ := unfolds.admitted began
  have never : (Undertaking.stepWith c).UsesStore := stored _ _ _ admitted
  exact never.elim

/-- Whether a node that is a process of its flow has spoken in a stored conversation. -/
def Situation.showsSpoken (id node : String) (s : Situation) : Bool :=
  match s.store.backing.get id with
  | .ok (some c) => c.messages.any (fun m => m.role = .assistant && m.node = some node) &&
    (s.flows.get? c.flow).any fun g => (g.node? node).any fun n => n.spec.kind = .process
  | _ => false

theorem Situation.spoken_of_shows {id node : String} (shows : s.showsSpoken id node = true) :
    ∃ c g, s.store.backing.get id = .ok (some c) ∧ s.flows.get? c.flow = some g ∧ c.Spoken g := by
  unfold showsSpoken at shows
  split at shows
  · next c found =>
    obtain ⟨spoke, process⟩ := Bool.and_eq_true_iff.1 shows
    obtain ⟨m, inside, uttered⟩ := List.any_eq_true.1 spoke
    obtain ⟨role, named⟩ := Bool.and_eq_true_iff.1 uttered
    obtain ⟨g, known, process⟩ := (Option.any_eq_true _ _).1 process
    obtain ⟨n, there, kind⟩ := (Option.any_eq_true _ _).1 process
    refine ⟨c, g, found, known, m, inside, of_decide_eq_true role, node, n, ?_⟩
    have kind : n.spec.kind = .process := of_decide_eq_true kind
    cases same : n.spec with
    | process spec => exact ⟨spec, of_decide_eq_true named, there, rfl⟩
    | _ => rw [same] at kind; cases kind
  · cases shows

/-- What a post that succeeds makes of the conversation. -/
def Happening.posted? : Happening → Option Conversation
  | .ended (.operation (.post _ _)) (.ok (.conversation d)) _ => some d
  | _ => none

theorem Work.ended_of_posted? {u : Undertaking} {x : Work}
    (posted : (x.happening u).posted? = some d) :
    ∃ s, x.happening u = .ended u (.ok (.conversation d)) s := by
  unfold Happening.posted? at posted
  split at posted
  · next id text d' s same =>
    obtain rfl := Option.some.inj posted
    cases x with
    | ask s q resume => cases same
    | done s reply =>
      obtain ⟨rfl, rfl, rfl⟩ := Happening.ended.inj same
      exact ⟨s, rfl⟩
  · cases posted

/-- In every history in which flows that are in use are not registered again, a post that succeeds
adds the message to what is said. Suppose that a process of the flow has spoken, and that the
conversation was completed or had nowhere to go on, or that where it goes on no finish is reached
without the model being asked. Whatever is then done and by whomever, and however it is interleaved,
as long as nobody overwrites the conversation with an older one: if it is found completed before the
user has spoken again, then the model has meanwhile been asked about all that was said, the message
included. -/
theorem Unfolds.posted_messages_heard
    {admits : List Happening → Situation → Undertaking → Prop}
    (free : s₀.claimed = []) (sound : s₀.store.Sound)
    (formed : ∀ flow g, s₀.flows.get? flow = some g → g.Formed)
    (stored : s₀.store.Holds ((Footing.bound s₀.settings).Holds s₀.flows))
    (once : ∀ history s f g, admits history s (.registration f) → f.toGraph = .ok g →
      ¬ InUse s₀ history f.id)
    (handed : ∀ history s c, admits history s (.stepWith c) →
      GivenBack history c ∨ (Footing.bound s₀.settings).Settles s₀ history s c)
    (unfolds : Unfolds admits s₀ history scene) {before after : List Happening} {id text : String}
    (cut : history = before ++
      .ended (.operation (.post id text)) (.ok (.conversation d)) s :: after) :
    ∃ s₁ c g m, before.getLast? = some (.began (.operation (.post id text)) s₁) ∧
      s₁.store.backing.get id = .ok (some c) ∧ s₁.flows.get? c.flow = some g ∧
      m.role = .user ∧ m.content = text ∧ d.messages = c.messages ++ [m] ∧
      (c.Spoken g → (c.status = .completed ∨ c.next = none ∨
          ¬ g.Bypasses d.handoff (g.nodeAt (d.next <|> d.current))) →
        BroughtAlong d after → ∀ e, scene.now.store.backing.get id = .ok (some e) →
        e.status = .completed → e.userTurns = d.userTurns → HeardIn d after) := by
  have upheld := Chartering.upheld_footed once handed rfl formed stored
  have post := (unfolds.tended False free sound False.elim False.elim).1 _ _ _ cut
  obtain ⟨o, last, ⟨f, reply, same, -⟩ | ⟨ch, s₁, past, stretch⟩⟩ :=
    (upheld.unfolds free sound unfolds).each _ _ _ cut _ rfl
  · cases same
  obtain ⟨rfl, -⟩ := stretch.posted
  obtain ⟨rfl, c, g, found, posted, known, graph, bound, leaves⟩ := stretch.leaves post.sound
  obtain ⟨m, role, content, messages⟩ := posted.message
  refine ⟨s₁, c, g, m, last, found, known, role, content, messages, ?_⟩
  intro spoken headed brought e found' completed silent
  have left := leaves (posted.willAsk known graph bound spoken headed)
  have pursued := (Chartering.upheld_pursuing left once).unfolds free sound unfolds
  have followed := pursued.holds.2 after (by simpa using cut)
  have own := (unfolds.tended False free sound False.elim False.elim).2.1.sound.id_eq found'
  exact (((followed.sequels brought).1 _ e found' own).asks silent).resolve_right
    fun asks => asks.going completed

/-- A conversation that was completed goes on with a posted message until it is completed again. -/
theorem assistant_hears_follow_up : ∃ before after d s scene,
    Unfolds (Undertaking.Fresh (.fresh .standard .memory default))
        (.fresh .standard .memory default)
        (before ++ .ended (.operation (.post "c" "And?")) (.ok (.conversation d)) s :: after)
        scene ∧
      (scene.now.store.backing.get "c").map (·.map fun e =>
        (e.status, e.messages.map (·.content))) =
          .ok (some (.completed, ["Hello", "Hi", "And?", "Bye"])) ∧
      HeardIn d after := by
  have new : Store.memory.IsNew := .inl rfl
  obtain ⟨history, scene, completed, status, shows, posts, closes, contents⟩ : ∃ history scene,
      Unfolds (Undertaking.Fresh (.fresh .standard .memory default))
        (.fresh .standard .memory default) history scene ∧
      (scene.now.store.backing.get "c").map (·.map (·.status)) = .ok (some .completed) ∧
      scene.now.showsSpoken "c" "agent" = true ∧
      (Work.happening (.operation (.post "c" "And?"))
        ((Undertaking.operation (.post "c" "And?")).perform scene.now)).posted?.map
          (·.userTurns) = some 2 ∧
      ((Work.resumed (modelAnswering "Bye" []) ((Undertaking.operation (.run "c" 5)).perform
        (Work.situation ((Undertaking.operation (.post "c" "And?")).perform
          scene.now)))).situation.store.backing.get "c").map (·.map fun e =>
            (e.status, e.userTurns)) = .ok (some (.completed, 2)) ∧
      ((Work.resumed (modelAnswering "Bye" []) ((Undertaking.operation (.run "c" 5)).perform
        (Work.situation ((Undertaking.operation (.post "c" "And?")).perform
          scene.now)))).situation.store.backing.get "c").map (·.map fun e =>
            (e.status, e.messages.map (·.content))) =
              .ok (some (.completed, ["Hello", "Hi", "And?", "Bye"])) := by
    have nothing : Unfolds (Undertaking.Fresh (.fresh .standard .memory default))
        (.fresh .standard .memory default) [] ⟨.fresh .standard .memory default, []⟩ := .start
    have registered := nothing.begin (.registration assistantFlow)
      ⟨trivial, fun f _ => not_inUse_nil new⟩
    have started := registered.begin
      (.operation (.start (some "c") "assistant" (some "Hello"))) ⟨trivial, nofun⟩
    have ran := started.begin (.operation (.run "c" 5)) ⟨trivial, nofun⟩
    have completed := ran.resumed (modelAnswering "Hi" [])
    exact ⟨_, _, completed, by decide +kernel, by decide +kernel, by decide +kernel,
      by decide +kernel, by decide +kernel⟩
  have posted := completed.begin (.operation (.post "c" "And?")) ⟨trivial, nofun⟩
  have again := posted.begin (.operation (.run "c" 5)) ⟨trivial, nofun⟩
  have ended := again.resumed (modelAnswering "Bye" [])
  obtain ⟨d, gives, turns⟩ := Option.map_eq_some_iff.1 posts
  obtain ⟨s, same⟩ := Work.ended_of_posted? gives
  simp only [same, List.append_assoc, List.cons_append, List.nil_append] at ended
  rw [List.append_cons] at ended
  obtain ⟨s₁, c, g, m, last, found, known, -, -, -, heard⟩ := ended.posted_messages_heard rfl
    new.sound (fun flow g known => by cases known) (new.holds _)
    (fun _ _ f _ admitted _ => admitted.2 f rfl) (fun _ _ _ admitted => admitted.1.elim) rfl
  rw [List.getLast?_concat] at last
  obtain ⟨-, rfl⟩ := Happening.began.inj (Option.some.inj last)
  refine ⟨_, _, d, s, _, ended, contents, ?_⟩
  -- The agent has spoken, and the conversation was completed.
  obtain ⟨c', g', found', known', spoken⟩ := Situation.spoken_of_shows shows
  obtain rfl : c = c' := Option.some.inj (Except.ok.inj (found.symm.trans found'))
  obtain rfl : g = g' := Option.some.inj (known.symm.trans known')
  rw [found] at status
  have finished : c.status = .completed := Option.some.inj (Except.ok.inj status)
  have brought := BroughtAlong.of_usesStore (d := d) (fun _ _ _ admitted => admitted.1) ended
    fun _ member => List.mem_append_right _ (List.mem_cons_of_mem _ member)
  obtain ⟨e, back, facts⟩ := found_of_map closes
  obtain ⟨closed, silent⟩ := Prod.mk.inj facts
  exact heard spoken (.inl finished) brought e back closed (silent.trans turns.symm)

/-! ## Passing a message over -/

/-- A message that was posted where a process had spoken is passed over: what has been begun since
are steps, and they have completed the conversation, but the model has not been asked anything. -/
structure PassedOver (before : List Happening) (id text : String) (after : List Happening)
    (now : Situation) : Prop where
  spoken : ∃ s c g, before.getLast? = some (.began (.operation (.post id text)) s) ∧
    s.store.backing.get id = .ok (some c) ∧ s.flows.get? c.flow = some g ∧ c.Spoken g
  steps : ∀ u s, .began u s ∈ after → u = .operation (.step id) ∨ ∃ c, u = .stepWith c
  completed : ∃ e, now.store.backing.get id = .ok (some e) ∧ e.status = .completed ∧
    e.cancelled = false
  unheard : ∀ u q reply s, .answered u q reply s ∉ after

/-- Begins whatever uses the store or goes on with what was given back, and registers no flow that
conversations are on. -/
def Undertaking.Returning (s₀ : Situation) (history : List Happening) (_ : Situation)
    (u : Undertaking) : Prop :=
  (∀ c, u = .stepWith c → GivenBack history c) ∧ ∀ f, u = .registration f → ¬ InUse s₀ history f.id

theorem Undertaking.Returning.of_operation (op : Operation) :
    Undertaking.Returning s₀ history s (.operation op) :=
  ⟨fun _ same => (by cases same), fun _ same => (by cases same)⟩

/-- What an undertaking gives back when it ends. -/
def Happening.gives? : Happening → Option Conversation
  | .ended _ (.ok outcome) _ => outcome.conversation?
  | _ => none

theorem GivenBack.of_isSome (member : h ∈ history) (given : h.gives?.isSome) :
    GivenBack history (h.gives?.get given) := by
  have gives := (Option.some_get given).symm
  generalize h.gives?.get given = c at gives
  unfold Happening.gives? at gives
  split at gives
  · next u outcome s => exact ⟨u, outcome, s, member, gives⟩
  · cases gives

/-- It is passed over if a single step completes the conversation without asking anybody. -/
theorem Unfolds.passed_over {id text place : String} {u : Undertaking}
    (unfolds : Unfolds (Undertaking.Returning s₀) s₀ history scene) (node : String)
    (shows : scene.now.showsSpoken id node = true)
    (posts : (Work.happening (.operation (.post id text))
      ((Undertaking.operation (.post id text)).perform scene.now)).posted?.map (·.next) =
        some (some place))
    (step : u = .operation (.step id) ∨ ∃ c, u = .stepWith c ∧ GivenBack history c)
    (closes : ((Work.situation (u.perform (Work.situation
      ((Undertaking.operation (.post id text)).perform scene.now)))).store.backing.get id).map
        (·.map fun e => (e.status, e.cancelled)) = .ok (some (.completed, false))) :
    ∃ before d s after scene,
      Unfolds (Undertaking.Returning s₀) s₀
        (before ++ .ended (.operation (.post id text)) (.ok (.conversation d)) s :: after) scene ∧
      d.next = some place ∧ PassedOver before id text after scene.now := by
  have returning : Undertaking.Returning s₀ (history ++ [.began (.operation (.post id text))
      scene.now, Work.happening (.operation (.post id text))
        ((Undertaking.operation (.post id text)).perform scene.now)])
      (Work.situation ((Undertaking.operation (.post id text)).perform scene.now)) u := by
    rcases step with rfl | ⟨c, rfl, given⟩
    · exact .of_operation _
    · refine ⟨fun c' same => ?_, fun f same => by cases same⟩
      cases same
      exact given.mono (List.subset_append_left _ _)
  have ended := (unfolds.begin (.operation (.post id text)) (.of_operation _)).begin u returning
  obtain ⟨d, gives, leads⟩ := Option.map_eq_some_iff.1 posts
  obtain ⟨s, same⟩ := Work.ended_of_posted? gives
  simp only [same, List.append_assoc, List.cons_append, List.nil_append] at ended
  rw [List.append_cons] at ended
  refine ⟨_, d, s, _, _, ended, leads, ?_⟩
  obtain ⟨c, g, said⟩ := Situation.spoken_of_shows shows
  obtain ⟨e, back, facts⟩ := found_of_map closes
  refine ⟨⟨scene.now, c, g, List.getLast?_concat, said⟩, fun u' s' began => ?_,
    ⟨e, back, Prod.mk.inj facts⟩, fun u' q reply s' told => ?_⟩
  · rcases List.mem_cons.1 began with same | last
    · obtain ⟨rfl, -⟩ := Happening.began.inj same
      exact step.imp_right fun ⟨c, brings, _⟩ => ⟨c, brings⟩
    · exact absurd (List.mem_singleton.1 last).symm (Work.happening_ne_began _ _ _ _)
  · rcases List.mem_cons.1 told with same | last
    · cases same
    · exact absurd (List.mem_singleton.1 last).symm (Work.happening_ne_answered _ _ _ _ _ _)

/-- A message that is posted while a conversation is about to finish is passed over. So is one that
has led a completed conversation back to its process, if the next step is taken with an older copy
of it. -/
theorem follow_ups_passed_over :
    (∃ before d s after scene,
      Unfolds (Undertaking.Returning (.fresh .standard .memory default))
        (.fresh .standard .memory default)
        (before ++ .ended (.operation (.post "c" "And?")) (.ok (.conversation d)) s :: after)
        scene ∧
      d.next = some "finish" ∧ PassedOver before "c" "And?" after scene.now) ∧
    ∃ before d s after scene,
      Unfolds (Undertaking.Returning (.fresh .standard .memory default))
        (.fresh .standard .memory default)
        (before ++ .ended (.operation (.post "c" "And?")) (.ok (.conversation d)) s :: after)
        scene ∧
      d.next = some "agent" ∧ PassedOver before "c" "And?" after scene.now := by
  have new : Store.memory.IsNew := .inl rfl
  have nothing : Unfolds (Undertaking.Returning (.fresh .standard .memory default))
      (.fresh .standard .memory default) [] ⟨.fresh .standard .memory default, []⟩ := .start
  have registered := nothing.begin (.registration assistantFlow)
    ⟨fun _ same => (by cases same), fun f _ => not_inUse_nil new⟩
  have started := registered.begin
    (.operation (.start (some "c") "assistant" (some "Hello"))) (.of_operation _)
  have greeted := started.begin (.operation (.step "c")) (.of_operation _)
  have asked := greeted.begin (.operation (.step "c")) (.of_operation _)
  obtain ⟨history, answered, told⟩ := asked.played (by simp) (modelAnswering "Hi" []) 1
  have finished := answered.begin (.operation (.step "c")) (.of_operation _)
  have older := GivenBack.of_isSome told (by decide +kernel)
  exact ⟨answered.passed_over "agent" (by decide +kernel) (by decide +kernel) (.inl rfl)
      (by decide +kernel),
    finished.passed_over "agent" (by decide +kernel) (by decide +kernel)
      (.inr ⟨_, rfl, older.mono (List.subset_append_left _ _)⟩) (by decide +kernel)⟩

end DialogueEngine
