import DialogueEngine.Proofs.Engine.Dues

/-!
Operations and the calls that are due. Every operation makes calls due only by requesting approval
of them, and an approval settles a call: it is asked to be run while it is due, and is due no more
afterwards unless the write is refused that was to tell so.
-/

namespace DialogueEngine

open Conversation (Pauses)
open Situation (Beside Grows More lasting_more steady_grows)

/-- Whether a question asks for such a call to be run. -/
def Question.runs (k : Charge) : Question → Bool
  | .runTool provider tool _ => provider = k.provider && tool = k.tool
  | _ => false

namespace Engine

variable {α : Type} {id : String} {k : Charge} {c d : Conversation} {since s : Situation}

/-! ## Claims -/

/-- A situation in which a conversation is free and can be claimed and worked on. -/
structure Approachable (id : String) (k : Charge) (since s : Situation) : Prop where
  grows : Grows id k since s
  free : id ∉ s.claimed
  sound : s.store.Sound
  pausing : s.store.Holds Pauses

theorem Approachable.of_core {s' : Situation} (approachable : Approachable id k since s)
    (same : s'.core = s.core) (more : More id k s s') : Approachable id k since s' where
  grows := approachable.grows.trans (.of_core same more)
  free := by
    rw [Situation.claimed_of_core same]
    exact approachable.free
  sound := approachable.sound.of_backing (Situation.backing_of_core same)
  pausing := by
    intro other c found
    rw [Situation.backing_of_core same] at found
    exact approachable.pausing other c found

/-- A conversation that is stored and worked on. -/
structure Handled (id : String) (k : Charge) (since s : Situation) (c : Conversation) : Prop where
  grows : Grows id k since s
  named : c.id = id
  pauses : c.Pauses
  found : s.store.backing.get id = .ok (some c)

theorem Handled.due (handled : Handled id k since s c) :
    s.due id k = c.pending.countP k.fits := Situation.due_of_found handled.found

theorem Handled.of_published {s' : Situation} (handled : Handled id k since s c)
    (same : s'.store = s.store) (grown : s.published <+: s'.published) :
    Handled id k since s' c :=
  { handled with
    grows := handled.grows.trans (.of_published (by rw [same]) grown)
    found := by rw [same]; exact handled.found }

/-- What is worked on is in hand as it was after others have spared it. -/
theorem Handled.resume {s' : Situation} (handled : Handled id k since s c)
    (beside : Beside id k s s') : Handled id k s' s' c :=
  { handled with
    grows := .refl s'
    found := (Backing.get_of_entry beside.entry).trans handled.found }

theorem Handled.saving (handled : Handled id k since s c) (named : d.id = c.id)
    (fewer : d.pending.countP k.fits ≤ c.pending.countP k.fits) :
    Grows id k since (s.saving d) :=
  handled.grows.saving_due (named.trans handled.named) (handled.due ▸ fewer)

theorem grows_releasing (grows : Grows id k since s) : Grows id k since (releasing id s) :=
  grows.trans (.of_published rfl List.prefix_rfl)

theorem save_grows (handled : Handled id k since s c) (named : d.id = c.id)
    (fewer : d.pending.countP k.fits ≤ c.pending.countP k.fits) :
    (save d s).Ends fun _ s' => Grows id k since s' :=
  (save_ends d s).mono (fun _ asked => asked) fun _ _ saved =>
    saved ▸ handled.saving named fewer

section Approachable

variable (approachable : Approachable id k since s)
include approachable

/-- A conversation that is free is claimed and loaded, unless that fails, worked on and released. -/
theorem claiming_loads (rest : Conversation → Engine (Except Failure α)) :
    (∃ f s', (claiming id do
        match ← load id with
        | .error f => return .error f
        | .ok c => rest c) s = .done s' (.error f) ∧ Grows id k since s') ∨
      ∃ c s', Handled id k since s' c ∧ (claiming id do
        match ← load id with
        | .error f => return .error f
        | .ok c => rest c) s =
          (rest c s').andThen fun reply s'' => .done (releasing id s'') reply := by
  obtain ⟨grows, free, sound, pausing⟩ := approachable
  have claimed : Grows id k since { s with claimed := id :: s.claimed } :=
    grows.trans (.of_published rfl List.prefix_rfl)
  obtain ⟨s₁, loaded, done, ⟨same, found, -⟩, grown⟩ :=
    ((upholds_load (steady_grows id k) id).ends (steady_grows id k)
      (load_ends_core id { s with claimed := id :: s.claimed })).eq_done
  have grows₁ := claimed.trans grown
  unfold claiming
  rw [Activity.bind_of_done (tryClaim_free free)]
  simp only [↓reduceIte, bind_assoc]
  rw [Activity.bind_of_done done]
  cases loaded with
  | error f => exact .inl ⟨f, _, rfl, grows_releasing grows₁⟩
  | ok c =>
    have there := found c rfl
    refine .inr ⟨c, s₁, ⟨grows₁, sound.id_eq there, pausing id c there, ?_⟩, rfl⟩
    rw [Situation.backing_of_core same]
    exact there

theorem claiming_load_tallies {rest : Conversation → Engine (Except Failure α)}
    (works : ∀ c s', Handled id k since s' c →
      Tallies id k (rest c) since s' fun since _ s'' => Grows id k since s'') :
    Tallies id k
      (claiming id do
        match ← load id with
        | .error f => return .error f
        | .ok c => rest c) since s fun since _ s' => Grows id k since s' := by
  rcases claiming_loads approachable rest with ⟨f, s', done, grows⟩ | ⟨c, s', handled, goesOn⟩
  · rw [Tallies, done]
    exact grows
  · rw [Tallies, goesOn]
    exact (works c s' handled).andThen fun _ _ _ grows => grows_releasing grows

/-! ## Operations -/

theorem step_tallies :
    Tallies id k (step id) since s fun since _ s' => Grows id k since s' := by
  refine claiming_load_tallies approachable fun c s' handled => ?_
  apply Activity.abides_bind
    (advance_tallies handled.grows handled.named handled.pauses handled.due.ge)
  intro since o s' tallied
  exact tallied.grows

theorem run_tallies (most : Nat) :
    Tallies id k (run id most) since s fun since _ s' => Grows id k since s' := by
  refine claiming_load_tallies approachable fun c s' handled => ?_
  apply Activity.abides_bind
    (advance_tallies handled.grows handled.named handled.pauses handled.due.ge)
  intro since o s' tallied
  apply Activity.abides_bind (keepGoing_tallies (most - 1) tallied)
  intro since o s' tallied
  exact tallied.grows

theorem post_tallies (text : String) :
    Tallies id k (post id text) since s fun since _ s' => Grows id k since s' := by
  refine claiming_load_tallies approachable fun c s' handled => ?_
  split
  · exact handled.grows
  split
  · exact handled.grows
  have stamps : (stamp s').Ends fun _ s'' => Handled id k since s'' c :=
    handled.of_published rfl List.prefix_rfl
  apply Activity.abides_bind_ends stamps
  intro t s₁ handled
  have saves (d : Conversation) (named : d.id = c.id) (pending : d.pending = c.pending) :
      Tallies id k (save d) since s₁ fun since _ s' => Grows id k since s' :=
    (save_grows handled named (by rw [pending])).abides fun _ _ grows => grows
  split
  · apply Activity.abides_bind_ends (graph_ends _ s₁)
    rintro found _ rfl
    split
    · exact handled.grows
    · exact saves _ (Conversation.reopen_id _) (Conversation.reopen_pending _)
  · exact saves _ (Conversation.reopen_id _) (Conversation.reopen_pending _)

theorem setRecording_tallies (enabled : Bool) :
    Tallies id k (setRecording id enabled) since s fun since _ s' => Grows id k since s' := by
  refine claiming_load_tallies approachable fun c s' handled => ?_
  have reads : (now s').Ends fun _ s'' => Handled id k since s'' c :=
    handled.of_published rfl List.prefix_rfl
  apply Activity.abides_bind_ends reads
  intro now s₁ handled
  exact (save_grows (d := c.withRecording enabled now) handled rfl (Nat.le_refl _)).abides
    fun _ _ grows => grows

theorem cancel_tallies :
    Tallies id k (cancel id) since s fun since _ s' => Grows id k since s' := by
  rw [Tallies, cancel_free approachable.free]
  refine claiming_load_tallies approachable fun c s' handled => ?_
  have reads : (now s').Ends fun _ s'' => Handled id k since s'' c :=
    handled.of_published rfl List.prefix_rfl
  apply Activity.abides_bind_ends reads
  intro now s₁ handled
  refine (write_ends_saving _ s₁).abides fun _ s₂ holds => ?_
  rw [holds.1]
  exact handled.saving rfl (Nat.le_refl _)

theorem stepBeyond_tallies (recorded : Nat) :
    Tallies id k (stepBeyond id recorded) since s fun since _ s' => Grows id k since s' := by
  apply Activity.abides_bind (step_tallies approachable)
  intro since outcome s' grows
  split
  · exact grows
  · exact grows.trans (.of_published rfl List.prefix_rfl)

theorem goForward_tallies :
    Tallies id k (goForward id) since s fun since _ s' => Grows id k since s' := by
  have steady := (lasting_more id k).toSteady
  have looks := (upholds_trace steady id).ends steady (trace_ends id s)
  apply Activity.abides_bind_ends looks
  rintro records s₁ ⟨same, more⟩
  have approachable₁ := approachable.of_core same more
  split
  · exact approachable₁.grows
  · have stands (size : Nat) := (upholds_cursor id size).ends steady (cursor_ends id size s₁)
    apply Activity.abides_bind_ends (stands _)
    rintro place s₂ ⟨same, more⟩
    have approachable₂ := approachable₁.of_core same more
    split
    · exact stepBeyond_tallies approachable₂ _
    · split
      · exact approachable₂.grows.trans (.of_published rfl List.prefix_rfl)
      · exact stepBeyond_tallies approachable₂ _

theorem resumeTrace_tallies :
    Tallies id k (resumeTrace id) since s fun since _ s' => Grows id k since s' := by
  have drops : (dropCursor id s).Ends fun _ s' => Approachable id k since s' :=
    approachable.of_core rfl (Nat.le_refl _)
  apply Activity.abides_bind_ends drops
  intro _ s' approachable
  exact setRecording_tallies approachable false

end Approachable

theorem stepWith_tallies (grows : Grows id k since s) (named : c.id = id) (free : id ∉ s.claimed)
    (pauses : c.Pauses) (due : c.pending.countP k.fits ≤ s.due id k) :
    Tallies id k (stepWith c) since s fun since _ s' => Grows id k since s' := by
  subst named
  unfold stepWith
  dsimp only
  split
  · exact grows
  apply Activity.abides_bind_ends (tryClaim_free_ends free)
  rintro isFree s₁ ⟨rfl, rfl⟩
  rw [if_pos rfl]
  have claimed : Grows c.id k since { s with claimed := c.id :: s.claimed } :=
    grows.trans (.of_published rfl List.prefix_rfl)
  apply Activity.abides_bind (advance_tallies claimed rfl pauses due)
  intro since o s' tallied
  exact grows_releasing tallied.grows

/-- A start makes nothing due. -/
theorem start_grows {chosen : Option String} (named : chosen.getD s.clock.tick.1.id = id)
    (grows : Grows id k since s) (free : id ∉ s.claimed) (flow : String)
    (message : Option String) :
    (start chosen flow message s).Ends fun _ s' => Grows id k since s' := by
  have steady := steady_grows id k
  apply Activity.meets_bind (graph_ends flow s)
  intro found s₀ unchanged
  obtain rfl : s = s₀ := unchanged.symm
  split
  · exact grows
  extract_lets begins
  have begin {s₁ : Situation} (grows : Grows id k since s₁) (unclaimed : id ∉ s₁.claimed) :
      (begins id s₁).Ends fun _ s' => Grows id k since s' := by
    dsimp only [begins]
    split
    · exact grows
    have claimed : Grows id k since { s₁ with claimed := id :: s₁.claimed } :=
      grows.trans (.of_published rfl List.prefix_rfl)
    refine claiming_free_ends unclaimed ?_
    apply Activity.meets_bind ((upholds_read steady id).ends steady (read_ends id _))
    rintro found s₂ ⟨-, read⟩
    have grows₂ := claimed.trans read
    split
    · exact grows_releasing grows₂
    · exact grows_releasing grows₂
    have saves {fresh : Conversation} {s₃ : Situation} (grows : Grows id k since s₃)
        (own : fresh.id = id) (quiet : fresh.pending = []) :
        (save fresh s₃).Ends fun _ s' => Grows id k since (releasing id s') :=
      (save_ends fresh s₃).mono (fun _ asked => asked) fun _ _ saved =>
        saved ▸ grows_releasing (grows.saving_due own (by simp [quiet]))
    have looks : (situation s₂).Ends fun _ s' => Grows id k since s' := grows₂
    apply Activity.meets_bind looks
    intro seen s₃ grows₃
    have reads : (now s₃).Ends fun _ s' => Grows id k since s' :=
      grows₃.trans (.of_published rfl List.prefix_rfl)
    apply Activity.meets_bind reads
    intro now s₄ grows₄
    split
    · exact saves grows₄ rfl rfl
    · have stamps : (stamp s₄).Ends fun _ s' => Grows id k since s' :=
        grows₄.trans (.of_published rfl List.prefix_rfl)
      apply Activity.meets_bind stamps
      intro t s₅ grows₅
      exact saves grows₅ rfl rfl
  clear_value begins
  cases chosen with
  | some chosen =>
    obtain rfl : chosen = id := named
    exact begin grows free
  | none =>
    obtain rfl : s.clock.tick.1.id = id := named
    exact begin (grows.trans (.of_published rfl List.prefix_rfl)) free

/-! ## Decisions -/

/-- Answers a call that has been taken off with its result. -/
def answering (c : Conversation) (call : ToolCall) (decision : Decision) (result : ToolResult) :
    Engine (Except Failure Conversation) := do
  let s ← stamp
  let message := Message.answering call.id result s
  let message := match c.next <|> c.current with
    | some node => message.saidAt node
    | none => message
  telling (c.push message s.instant) call.id (decision = .approve)

theorem resolve_eq (id call : String) (decision : Decision) :
    resolve id call decision = claiming id (do
      match ← load id with
      | .error f => return .error f
      | .ok c =>
        match c.takeCall call (← now) with
        | none => return .error (.notPending id call)
        | some (taken, c) => decide c taken decision >>= answering c taken decision) := rfl

/-- Writing what has been answered, and telling so. -/
theorem telling_ends (d : Conversation) (call : String) (approved : Bool) (s : Situation) :
    (telling d call approved s).Ends fun _ s' =>
      s.published <+: s'.published ∧ s'.store = (s.saving d).store := by
  apply Activity.meets_bind (write_ends_saving d s)
  rintro written s₁ ⟨rfl, -⟩
  split
  · exact ⟨List.prefix_rfl, rfl⟩
  · exact ⟨List.prefix_append _ _, rfl⟩

/-- Whoever answers a call writes a conversation in which the same calls are pending. -/
theorem answering_ends (c : Conversation) (call : ToolCall) (decision : Decision)
    (result : ToolResult) (s : Situation) :
    (answering c call decision result s).Ends fun _ s' => s.published <+: s'.published ∧
      ∃ d, d.id = c.id ∧ d.pending = c.pending ∧ s'.store = (s.saving d).store := by
  have stamps : (stamp s).Ends fun _ s' => s'.published = s.published ∧ s'.store = s.store :=
    ⟨rfl, rfl⟩
  apply Activity.meets_bind stamps
  rintro t s₁ ⟨published, store⟩
  rw [← published]
  have told {d : Conversation} {s₂ : Situation} (same : s₂.store = (s₁.saving d).store)
      (named : d.id = c.id) (pending : d.pending = c.pending) :
      ∃ d, d.id = c.id ∧ d.pending = c.pending ∧ s₂.store = (s.saving d).store := by
    refine ⟨d, named, pending, ?_⟩
    rw [same, Situation.saving, Situation.saving, store]
  split
  · exact (telling_ends _ _ _ s₁).mono (fun _ asked => asked)
      fun _ _ holds => ⟨holds.1, told holds.2 rfl rfl⟩
  · exact (telling_ends _ _ _ s₁).mono (fun _ asked => asked)
      fun _ _ holds => ⟨holds.1, told holds.2 rfl rfl⟩

/-- The result of a tool that has been run; a failure to run it is a result, too. -/
def ranResult {provider tool : String} {arguments : Json} :
    Answer (.runTool provider tool arguments) → ToolResult
  | .ok result => result
  | .error f => .failure f.message

/-- A decision is made at once, or the tool that is called is run to make it. -/
theorem decide_cases (c : Conversation) (call : ToolCall) (decision : Decision) (s : Situation) :
    (∃ result, decide c call decision s = .done s result) ∨
      decision = .approve ∧ ∃ provider tool,
        ToolName.split call.name = .ok (provider, tool) ∧ decide c call decision s =
          .ask { s with published := s.published ++ [.toolStart c.id call.name call.arguments] }
            (.runTool provider tool call.arguments) fun answer s' =>
              .done { s' with
                published := s'.published ++ [.toolEnd c.id call.name (ranResult answer)] }
                (ranResult answer) := by
  cases decision with
  | reject reason => exact .inl ⟨_, rfl⟩
  | approve =>
    by_cases route : ToolName.isRoute call.name = true
    · have invokes : invoke c.id call = pure (.handoff call.name) := by
        unfold invoke
        rw [if_pos route]
      refine .inl ⟨.success ("Handoff acknowledged: " ++ call.name), ?_⟩
      unfold decide
      rw [invokes]
      rfl
    cases splits : ToolName.split call.name with
    | error f =>
      have invokes : invoke c.id call = pure (.completed (.failure f.message)) := by
        unfold invoke
        rw [if_neg route, splits]
      refine .inl ⟨.failure f.message, ?_⟩
      unfold decide
      rw [invokes]
      rfl
    | ok place =>
      obtain ⟨provider, tool⟩ := place
      refine .inr ⟨rfl, provider, tool, rfl, ?_⟩
      unfold decide invoke
      rw [if_neg route, splits]
      refine congrArg (Interaction.ask _ _) (funext fun answer => funext fun s' => ?_)
      cases answer <;> rfl

/-- What the stretch leaves that a call was run before: it is due no more, unless the next write was
to be refused. -/
structure Settles (id : String) (k : Charge) (since s : Situation) : Prop where
  more : More id k since s
  due : s.due id k + 1 ≤ since.due id k ∨
    s.due id k ≤ since.due id k ∧ since.store.writeRefusals.head? = some true

theorem Settles.later {s' : Situation} (settles : Settles id k since s)
    (same : s'.store = s.store) (grown : s.published <+: s'.published) :
    Settles id k since s' where
  more := settles.more.trans grown.sublist.countP_le
  due := by
    rw [Situation.due_of_backing (congrArg Store.backing same)]
    exact settles.due

/-- Work that asks at once for a call that is due to be run, and settles it by the answer. -/
def Settling (id : String) (k : Charge) (since : Situation) :
    Interaction Situation Question Answer α → Prop
  | .done _ _ => False
  | .ask s q resume => q.runs k = true ∧ Grows id k since s ∧ 1 ≤ s.due id k ∧
    ∀ answer s', Beside id k s s' → (resume answer s').Ends fun _ s'' => Settles id k s' s''

theorem Settling.andThen {β : Type} {x : Interaction Situation Question Answer α}
    {next : α → Situation → Interaction Situation Question Answer β}
    (settling : Settling id k since x)
    (later : ∀ a s, (next a s).Ends fun _ s' =>
      s'.store = s.store ∧ s.published <+: s'.published) :
    Settling id k since (x.andThen next) := by
  cases x with
  | done s a => exact settling.elim
  | ask s q resume =>
    obtain ⟨runs, grows, due, settles⟩ := settling
    refine ⟨runs, grows, due, fun answer s' beside => ?_⟩
    refine (settles answer s' beside).andThen fun a s'' settled => ?_
    exact (later a s'').mono (fun _ asked => asked) fun _ _ holds => settled.later holds.1 holds.2

/-- Answering a call that was due. -/
theorem Handled.settles {s' : Situation} (handled : Handled id k since s c)
    (named : d.id = c.id) (fewer : d.pending.countP k.fits + 1 ≤ c.pending.countP k.fits)
    (grown : s.published <+: s'.published) (same : s'.store = (s.saving d).store) :
    Settles id k s s' := by
  have written : Settles id k s (s.saving d) := by
    refine ⟨Nat.le_refl _, ?_⟩
    rw [handled.due]
    cases put : (s.store.put d).1 with
    | ok done =>
      have kept := Situation.due_le_of_keeps (s := s.saving d) (k := k)
        (named.trans handled.named) (Store.keeps_of_put put)
      exact .inl (by omega)
    | error f =>
      have backing := (Store.refused_of_put put).2
      have unchanged : (s.saving d).due id k = s.due id k := Situation.due_of_backing backing
      rw [handled.due] at unchanged
      exact .inr ⟨unchanged.le, Store.next_of_refused put⟩
  exact written.later same grown

/-- What is answered makes nothing due. -/
theorem Handled.answering_grows (handled : Handled id k since s c) (named : d.id = c.id)
    (fewer : d.pending.countP k.fits ≤ c.pending.countP k.fits) (call : ToolCall)
    (decision : Decision) (result : ToolResult) :
    (answering d call decision result s).Ends fun _ s' => Grows id k since s' := by
  refine (answering_ends d call decision result s).mono (fun _ asked => asked) fun _ s' holds => ?_
  obtain ⟨grown, answered, own, pending, store⟩ := holds
  have written : Grows id k since (s.saving answered) :=
    handled.saving (own.trans named) (by rw [pending]; exact fewer)
  exact written.trans (.of_published (by rw [store]) grown)

/-- What is answered that was due is settled. -/
theorem Handled.answering_settles {s₁ : Situation} (handled : Handled id k since s c)
    (named : d.id = c.id) (fewer : d.pending.countP k.fits + 1 ≤ c.pending.countP k.fits)
    (same : s₁.store = s.store) (grown : s.published <+: s₁.published) (call : ToolCall)
    (decision : Decision) (result : ToolResult) :
    (answering d call decision result s₁).Ends fun _ s' => Settles id k s s' := by
  refine (answering_ends d call decision result s₁).mono (fun _ asked => asked) fun _ s' holds => ?_
  obtain ⟨later, answered, own, pending, store⟩ := holds
  refine handled.settles (own.trans named) (by rw [pending]; exact fewer) (grown.trans later) ?_
  rw [store, Situation.saving, same, Situation.saving]

/-- Deciding on a call that has been taken off and answering it makes nothing due; and if it has the
call run that is meant, then that is due, and settled by the answer. -/
theorem deciding_cases {call : ToolCall} (handled : Handled id k since s c) (named : d.id = c.id)
    (count : c.pending.countP k.fits =
      d.pending.countP k.fits + if k.fits call = true then 1 else 0) (decision : Decision) :
    ((decide d call decision >>= answering d call decision) s).Abides (Beside id k) (Grows id k)
        (fun _ q => decision = .approve → call.id = k.call → q.runs k = false)
        (fun since _ s => Grows id k since s) since ∨
      decision = .approve ∧ call.id = k.call ∧
        Settling id k since ((decide d call decision >>= answering d call decision) s) := by
  have fewer : d.pending.countP k.fits ≤ c.pending.countP k.fits := by omega
  rcases decide_cases d call decision s with
    ⟨result, done⟩ | ⟨rfl, provider, tool, splits, asks⟩
  · rw [Activity.bind_of_done done]
    exact .inl ((handled.answering_grows named fewer call decision result).abides
      fun _ _ grows => grows)
  have ran : Handled id k since { s with
      published := s.published ++ [.toolStart d.id call.name call.arguments] } c :=
    handled.of_published rfl (List.prefix_append _ _)
  rw [Activity.bind_run, asks]
  by_cases meant : call.id = k.call ∧ provider = k.provider ∧ tool = k.tool
  · obtain ⟨same, rfl, rfl⟩ := meant
    have fits : k.fits call = true := by simp [Charge.fits, same, splits, Except.toOption]
    rw [if_pos fits] at count
    refine .inr ⟨rfl, same, by simp [Question.runs], ran.grows, ?_, fun answer s' beside => ?_⟩
    · rw [ran.due]
      omega
    · refine (ran.resume beside).answering_settles named count.ge ?_ ?_ call .approve _
      · rfl
      · exact List.prefix_append _ _
  · refine .inl ⟨ran.grows, ?_, fun answer s' beside => ?_⟩
    · intro _ same
      simpa [Question.runs, same] using meant
    · have resumed : Handled id k s' { s' with
          published := s'.published ++ [.toolEnd d.id call.name (ranResult answer)] } c :=
        (ran.resume beside).of_published rfl (List.prefix_append _ _)
      exact (resumed.answering_grows named fewer call .approve (ranResult answer)).abides
        fun _ _ grows => grows

theorem resolve_cases (approachable : Approachable id k since s) (call : String)
    (decision : Decision) :
    (resolve id call decision s).Abides (Beside id k) (Grows id k)
        (fun _ q => decision = .approve → call = k.call → q.runs k = false)
        (fun since _ s => Grows id k since s) since ∨
      decision = .approve ∧ call = k.call ∧ Settling id k since (resolve id call decision s) := by
  rw [resolve_eq]
  rcases claiming_loads approachable (fun c => do
      match c.takeCall call (← now) with
      | none => return .error (.notPending id call)
      | some (taken, c) => decide c taken decision >>= answering c taken decision) with
    ⟨f, s', done, grows⟩ | ⟨c, s₀, handled₀, goesOn⟩
  · rw [done]
    exact .inl grows
  rw [goesOn]
  have handled : Handled id k since { s₀ with clock := s₀.clock.tick.2 } c :=
    handled₀.of_published rfl List.prefix_rfl
  have ticks : now s₀ = .done { s₀ with clock := s₀.clock.tick.2 } s₀.clock.tick.1.instant := rfl
  rw [Activity.bind_of_done ticks]
  cases found : c.takeCall call s₀.clock.tick.1.instant with
  | none => exact .inl (grows_releasing handled.grows)
  | some pair =>
  obtain ⟨taken, rest⟩ := pair
  obtain ⟨others, inside, same⟩ := Conversation.takeCall_spec found
  obtain ⟨perm, rfl⟩ := Conversation.extract_spec inside
  have named : rest.id = c.id := by rw [same]
  have count : c.pending.countP k.fits =
      rest.pending.countP k.fits + if k.fits taken = true then 1 else 0 := by
    rw [same, perm.countP_eq, List.countP_cons]
  rcases deciding_cases handled named count decision with abides | ⟨approves, called, settling⟩
  · exact .inl (abides.andThen fun _ _ _ grows => grows_releasing grows)
  · exact .inr ⟨approves, called, settling.andThen fun _ _ => ⟨rfl, List.prefix_rfl⟩⟩

end Engine

/-! ## Undertakings -/

open Engine (Approachable Settling)

namespace Undertaking

variable {id : String} {k : Charge} {s : Situation}

/-- Whether an undertaking approves such a call of a conversation and asks for it to be run. -/
def runs (id : String) (k : Charge) : Undertaking → Question → Bool
  | .operation (.resolve other call .approve), q => other = id && call = k.call && q.runs k
  | _, _ => false

/-- A conversation at hand pauses as it should and brings along no call that is not due. -/
def Current (s : Situation) : Undertaking → Prop
  | .stepWith c => c.Pauses ∧ ∀ k : Charge, c.pending.countP k.fits ≤ s.due c.id k
  | _ => True

/-- Whoever finds the conversation free makes calls due by requests alone, and runs none on approval
but one that is due, which it settles. -/
theorem perform_tallies {u : Undertaking} (subject : u.subject s = some id)
    (approachable : Approachable id k s s) (current : u.Current s) :
    (u.perform s).Abides (Beside id k) (Grows id k) (fun _ q => u.runs id k q = false)
        (fun since _ s => Grows id k since s) s ∨
      (∀ q, u.runs id k q = q.runs k) ∧ Settling id k s (u.perform s) := by
  have outcome {α : Type} {x : Engine α} {f : α → Reply} (silent : ∀ q, u.runs id k q = false)
      (tallies : Engine.Tallies id k x s s fun since _ s' => Grows id k since s') :
      ((do return f (← x) : Engine Reply) s).Abides (Beside id k) (Grows id k)
        (fun _ q => u.runs id k q = false) (fun since _ s => Grows id k since s) s := by
    apply Activity.abides_bind (tallies.mono (fun _ q _ => silent q) fun _ _ _ grows => grows)
    intro since a s' grows
    exact grows
  have steady := steady_grows id k
  have upheld {α : Type} {x : Engine α} (upholds : Engine.Upholds (Grows id k) x)
      {post : α → Situation → Prop} (ends : (x s).Ends post) :
      Engine.Tallies id k x s s fun since _ s' => Grows id k since s' :=
    (upholds.ends steady ends).abides fun _ _ holds => holds.2
  cases u with
  | registration flow => cases subject
  | stepWith c =>
    obtain rfl := Option.some.inj subject
    exact .inl (outcome (fun _ => rfl) (Engine.stepWith_tallies approachable.grows rfl
      approachable.free current.1 (current.2 k)))
  | operation op =>
    cases op with
    | start chosen flow message =>
      have starts := Engine.start_grows (Option.some.inj subject) approachable.grows
        approachable.free flow message
      exact .inl (outcome (fun _ => rfl) (starts.abides fun _ _ grows => grows))
    | post _ text =>
      obtain rfl := Option.some.inj subject
      exact .inl (outcome (fun _ => rfl) (Engine.post_tallies approachable text))
    | step _ =>
      obtain rfl := Option.some.inj subject
      exact .inl (outcome (fun _ => rfl) (Engine.step_tallies approachable))
    | run _ most =>
      obtain rfl := Option.some.inj subject
      exact .inl (outcome (fun _ => rfl) (Engine.run_tallies approachable most))
    | cancel _ =>
      obtain rfl := Option.some.inj subject
      exact .inl (outcome (fun _ => rfl) (Engine.cancel_tallies approachable))
    | setRecording _ enabled =>
      obtain rfl := Option.some.inj subject
      exact .inl (outcome (fun _ => rfl) (Engine.setRecording_tallies approachable enabled))
    | enableTrace _ =>
      obtain rfl := Option.some.inj subject
      exact .inl (outcome (fun _ => rfl) (Engine.setRecording_tallies approachable true))
    | resumeTrace _ =>
      obtain rfl := Option.some.inj subject
      exact .inl (outcome (fun _ => rfl) (Engine.resumeTrace_tallies approachable))
    | currentRecord _ =>
      exact .inl (outcome (fun _ => rfl)
        (upheld (Engine.upholds_currentRecord steady _) (Engine.currentRecord_ends _ s)))
    | goBack _ =>
      exact .inl (outcome (fun _ => rfl)
        (upheld (Engine.upholds_goBack steady _) (Engine.goBack_ends _ s)))
    | goForward _ =>
      obtain rfl := Option.some.inj subject
      exact .inl (outcome (fun _ => rfl) (Engine.goForward_tallies approachable))
    | resolve id call decision =>
      obtain rfl := Option.some.inj subject
      rcases Engine.resolve_cases approachable call decision with
        tallies | ⟨rfl, rfl, settling⟩
      · have silent (q : Question) (other : decision = .approve → call = k.call →
            q.runs k = false) : runs id k (.operation (.resolve id call decision)) q = false := by
          cases decision with
          | reject reason => rfl
          | approve =>
            by_cases same : call = k.call
            · simp [runs, other rfl same]
            · simp [runs, same]
        left
        apply Activity.abides_bind (tallies.mono (fun _ q other => silent q other)
          fun _ _ _ grows => grows)
        intro since a s' grows
        exact grows
      · refine .inr ⟨fun q => by simp [runs], settling.andThen fun a s' => ?_⟩
        exact ⟨rfl, List.prefix_rfl⟩

end Undertaking

end DialogueEngine
