import DialogueEngine.Proofs.Engine.Consulting

/-!
Operations that keep abreast of the client of the tool providers. A step works on a conversation at
hand, and all that becomes of it keeps the listings that finding tools has left on it; so whatever
is written and given back of a conversation that is watched is abreast of the client.
-/

namespace DialogueEngine.Engine

open Conversation (Watched)

variable {α : Type} {id : String} {whole : Prop} {k k' : Client} {c c' : Conversation}

/-! ## Steps -/

theorem tracks_failStep (watched : c.Watched id whole k) (f : Failure) :
    Tracks id whole k (failStep c f) fun k o => o.conversation.Watched id whole k := by
  apply tracks_now.andThen
  intro k now becomes
  have failed : (c.giveUp f now).Watched id whole k := (watched.later becomes).of_shelf rfl
  apply (tracks_write failed).andThen
  intro k _ becomes
  exact (tracks_publish _).andThen fun _ _ further =>
    .pure ((failed.later becomes).later further)

theorem tracks_pickUpCancel (watched : c.Watched id whole k) :
    Tracks id whole k (pickUpCancel c) (Watched id whole) := by
  apply (tracks_takeCancel c.id).andThen
  intro k parked becomes
  have still := watched.later becomes
  split
  · apply tracks_now.andThen
    intro k now becomes
    have cancelled : ({ c with cancelled := true }.touch now).Watched id whole k :=
      (still.later becomes).of_shelf rfl
    exact (tracks_write cancelled).andThen fun _ _ further => .pure (cancelled.later further)
  · exact .pure still

theorem tracks_concluding (watched : c.Watched id whole k) (node : Node) (run : Visit) :
    Tracks id whole k (concluding c node run)
      fun k o => o.conversation.Watched id whole k := by
  apply (tracks_write watched).andThen
  intro k result becomes
  have still := watched.later becomes
  split
  · exact tracks_failStep still _
  · exact (tracks_publish _).andThen fun _ _ further => .pure (still.later further)

theorem tracks_completeStep (watched : c.Watched id whole k) (node : Node) (before : Option Json)
    (run : Visit) : Tracks id whole k (completeStep node c before run)
      fun k o => o.conversation.Watched id whole k := by
  have concluded {k' : Client} (noted now : Instant) (becomes : k.Becomes k') :
      Tracks id whole k' (concluding (c.conclude node run before noted now) node run)
        fun k o => o.conversation.Watched id whole k :=
    tracks_concluding
      ((watched.later becomes).of_shelf (Conversation.shelf_conclude ..)) node run
  unfold completeStep
  cases before with
  | none => exact tracks_now.andThen fun _ now becomes => concluded now now becomes
  | some before =>
    exact tracks_now.andThen fun _ noted becomes => tracks_now.andThen fun _ now further =>
      concluded noted now (becomes.trans further)

theorem tracks_stepNode (watched : c.Watched id whole k) (node : Node) :
    Tracks id whole k (stepNode node c) fun k o => o.conversation.Watched id whole k := by
  apply (tracks_publish _).andThen
  intro k _ becomes
  have started : c.leavePause.Watched id whole k :=
    (watched.later becomes).of_shelf (Conversation.shelf_leavePause c)
  apply (tracks_visit node started).bind
  intro k visited _ watched
  obtain ⟨c', result⟩ := visited
  apply (tracks_takeCancel _).andThen
  intro k cancel becomes
  have arrived : (c'.arrive node cancel).Watched id whole k :=
    (watched.later becomes).of_shelf (Conversation.shelf_arrive c' node cancel)
  cases result with
  | ok run => exact tracks_completeStep arrived node _ run
  | error f =>
    have noted {k' : Client} (before : Option Json) (now : Instant) (further : k.Becomes k') :
        ((c'.arrive node cancel).noteFailure node before f now).Watched id whole k' :=
      (arrived.later further).of_shelf (Conversation.shelf_noteFailure ..)
    dsimp only
    split
    · exact tracks_failStep arrived f
    · next before _ =>
      exact tracks_now.andThen fun _ now further =>
        tracks_failStep (noted (some before) now further) f

theorem tracks_advance (watched : c.Watched id whole k) :
    Tracks id whole k (advance c) fun k o => o.conversation.Watched id whole k := by
  apply (tracks_pickUpCancel watched).bind
  intro k c _ watched
  split
  · exact .pure watched
  split
  · exact .pure watched
  split
  · exact .pure watched
  apply (tracks_graph c.flow).andThen
  intro k found becomes
  split
  · exact tracks_failStep (watched.later becomes) _
  · exact tracks_stepNode (watched.later becomes) _

theorem tracks_stepWith (watched : c.Watched id whole k) :
    Tracks id whole k (stepWith c) fun k o => o.conversation.Watched id whole k := by
  unfold stepWith
  dsimp only
  split
  · exact .pure (watched.of_shelf rfl)
  · apply (tracks_tryClaim c.id).andThen
    intro k free becomes
    have still := watched.later becomes
    split
    · apply (tracks_advance still).bind
      intro k o _ watched
      exact (tracks_release c.id).andThen fun _ _ further => .pure (watched.later further)
    · exact .pure (still.of_shelf rfl)

theorem Given.later {f : α → Conversation} {k k' : Client} {result : Except Failure α}
    (given : Given (fun a => (f a).Watched id whole k) result) (becomes : k.Becomes k') :
    Given (fun a => (f a).Watched id whole k') result :=
  fun a same => (given a same).later becomes

/-- What works on a conversation that it has claimed. -/
theorem tracks_claimed {key : String} {body : Engine (Except Failure α)} (f : α → Conversation)
    (tracks : ∀ k, Tracks id whole k body fun k => Given fun a => (f a).Watched id whole k) :
    Tracks id whole k (claiming key body) fun k => Given fun a => (f a).Watched id whole k := by
  apply (tracks_tryClaim key).andThen
  intro k free _
  split
  · apply (tracks k).bind
    intro k result _ given
    exact (tracks_release key).andThen fun _ _ becomes => .pure (given.later becomes)
  · exact .pure (.error _)

theorem tracks_step (key : String) : Tracks id whole k (step key)
    fun k => Given fun o => o.conversation.Watched id whole k := by
  refine tracks_claimed _ fun k => ((tracks_load key).bind fun k loaded _ given => ?_)
  split
  · exact .pure (.error _)
  · next c =>
    exact (tracks_advance (given c rfl)).bind fun _ o _ watched => .pure (.ok watched)

theorem tracks_keepGoing (budget : Nat) {o : StepResult}
    (watched : o.conversation.Watched id whole k) :
    Tracks id whole k (keepGoing budget o) fun k o => o.conversation.Watched id whole k := by
  induction budget generalizing o k with
  | zero => exact .pure watched
  | succ budget ih =>
    unfold keepGoing
    split
    · exact (tracks_advance watched).bind fun k o _ watched => ih watched
    · exact .pure watched

theorem tracks_run (key : String) (most : Nat) : Tracks id whole k (run key most)
    fun k => Given fun o => o.conversation.Watched id whole k := by
  refine tracks_claimed _ fun k => ((tracks_load key).bind fun k loaded _ given => ?_)
  split
  · exact .pure (.error _)
  · next c =>
    apply (tracks_advance (given c rfl)).bind
    intro k o _ watched
    exact (tracks_keepGoing _ watched).bind fun _ o _ watched => .pure (.ok watched)

/-! ## Other operations -/

theorem tracks_save (watched : c.Watched id whole k) :
    Tracks id whole k (save c) fun k => Given (Watched id whole k) := by
  apply (tracks_write watched).andThen
  intro k written becomes
  split
  · exact .pure (.error _)
  · exact .pure (.ok (watched.later becomes))

/-- A new conversation keeps no listings. -/
theorem tracks_start (key : Option String) (flow : String) (message : Option String) :
    Tracks id whole k (start key flow message) fun k => Given (Watched id whole k) := by
  apply (tracks_graph flow).andThen
  intro k found _
  split
  · exact .pure (.error _)
  extract_lets begins
  have each (k : Client) (key : String) :
      Tracks id whole k (begins key) fun k => Given (Watched id whole k) := by
    dsimp only [begins]
    split
    · exact .pure (.error _)
    refine tracks_claimed (fun c => c) fun k => (tracks_read key).bind fun k found _ _ => ?_
    split
    · exact .pure (.error _)
    · exact .pure (.error _)
    · refine tracks_situation.andThen fun k s _ => tracks_now.andThen fun k now _ => ?_
      split
      · exact tracks_save fun _ => .of_nothing rfl rfl
      · exact tracks_stamp.andThen fun k s _ => tracks_save fun _ => .of_nothing rfl rfl
  clear_value begins
  have chosen (k : Client) (key : String) :
      Tracks id whole k (pure key : Engine String) fun _ _ => True := .pure trivial
  cases key with
  | some key => exact (chosen k key).andThen fun k key _ => each k key
  | none =>
    exact tracks_stamp.andThen fun k s _ => (chosen k s.id).andThen fun k key _ => each k key

theorem tracks_post (key text : String) :
    Tracks id whole k (post key text) fun k => Given (Watched id whole k) := by
  refine tracks_claimed (fun c => c) fun k => ((tracks_load key).bind fun k loaded _ given => ?_)
  split
  · exact .pure (.error _)
  next c =>
  have watched := given c rfl
  split
  · exact .pure (.error _)
  split
  · exact .pure (.error _)
  apply tracks_stamp.andThen
  intro k s becomes
  have still := watched.later becomes
  dsimp only
  split
  · apply (tracks_graph _).andThen
    intro k found further
    split
    · exact .pure (.error _)
    · next g =>
      have rewound : (c.push (.user text s) s.instant).rewind g |>.Watched id whole k :=
        (still.later further).of_shelf rfl
      exact tracks_save (rewound.of_shelf (Conversation.shelf_reopen _))
  · have posted : (c.push (.user text s) s.instant).Watched id whole k := still.of_shelf rfl
    exact tracks_save (posted.of_shelf (Conversation.shelf_reopen _))

theorem tracks_cancel (key : String) : Tracks id whole k (cancel key) fun _ _ => True := by
  apply (tracks_tryClaim key).andThen
  intro k free _
  split
  · apply (tracks_load key).bind
    intro k loaded _ given
    split
    · exact (tracks_release key).andThen fun _ _ _ => .pure trivial
    · next c =>
      apply tracks_now.andThen
      intro k now becomes
      have cancelled : ({ c with cancelled := true }.touch now).Watched id whole k :=
        ((given c rfl).later becomes).of_shelf rfl
      apply (tracks_write cancelled).andThen
      intro _ _ _
      exact (tracks_release key).andThen fun _ _ _ => .pure trivial
  · exact (tracks_parkCancel key).andThen fun _ _ _ => .pure trivial

theorem tracks_setRecording (key : String) (enabled : Bool) :
    Tracks id whole k (setRecording key enabled) fun k => Given (Watched id whole k) := by
  refine tracks_claimed (fun c => c) fun k => ((tracks_load key).bind fun k loaded _ given => ?_)
  split
  · exact .pure (.error _)
  · next c =>
    apply tracks_now.andThen
    intro k now becomes
    exact tracks_save (((given c rfl).later becomes).of_shelf rfl)

theorem tracks_decide (c : Conversation) (call : ToolCall) (decision : Decision) :
    Tracks id whole k (decide c call decision) fun _ _ => True := by
  cases decision with
  | approve =>
    apply (tracks_invoke c.id call).andThen
    intro k outcome _
    split <;> exact .pure trivial
  | reject reason => exact tracks_situation.andThen fun _ _ _ => .pure trivial

theorem tracks_telling (watched : c.Watched id whole k) (call : String) (approved : Bool) :
    Tracks id whole k (telling c call approved) fun k => Given (Watched id whole k) := by
  apply (tracks_write watched).andThen
  intro k written becomes
  have still := watched.later becomes
  split
  · exact .pure (.error _)
  · exact (tracks_publish _).andThen fun _ _ further => .pure (.ok (still.later further))

theorem tracks_resolve (key call : String) (decision : Decision) :
    Tracks id whole k (resolve key call decision) fun k => Given (Watched id whole k) := by
  refine tracks_claimed (fun c => c) fun k => ((tracks_load key).bind fun k loaded _ given => ?_)
  split
  · exact .pure (.error _)
  next c =>
  apply tracks_now.andThen
  intro k now becomes
  split
  · exact .pure (.error _)
  next taken rest found =>
  have left : rest.Watched id whole k :=
    ((given c rfl).later becomes).of_shelf (Conversation.shelf_takeCall found)
  refine (tracks_decide _ _ _).andThen fun k result becomes =>
    tracks_stamp.andThen fun k s further => ?_
  have answered (m : Message) : Tracks id whole k
      (telling (rest.push m s.instant) taken.id (decision = .approve))
      fun k => Given (Watched id whole k) := by
    have said : (rest.push m s.instant).Watched id whole k :=
      ((left.later becomes).later further).of_shelf rfl
    exact tracks_telling said _ _
  dsimp only
  split
  · exact answered _
  · exact answered _

/-! ## Cursors -/

theorem tracks_trace (key : String) : Tracks id whole k (trace key) fun _ _ => True := by
  apply (tracks_load key).bind
  intro k loaded _ _
  split <;> exact .pure trivial

theorem tracks_cursor (key : String) (size : Nat) :
    Tracks id whole k (cursor key size) fun _ _ => True := by
  unfold cursor
  split
  · exact .pure trivial
  · exact tracks_situation.andThen fun _ _ _ => .pure trivial

theorem tracks_setCursor (key : String) (place : Nat) :
    Tracks id whole k (setCursor key place) fun _ _ => True :=
  tracks_update fun _ => rfl

theorem tracks_dropCursor (key : String) :
    Tracks id whole k (dropCursor key) fun _ _ => True :=
  tracks_update fun _ => rfl

theorem tracks_currentRecord (key : String) :
    Tracks id whole k (currentRecord key) fun _ _ => True := by
  apply (tracks_trace key).andThen
  intro k records _
  split
  · exact .pure trivial
  · apply (tracks_cursor key _).andThen
    intro k place _
    split <;> exact .pure trivial

theorem tracks_goBack (key : String) : Tracks id whole k (goBack key) fun _ _ => True := by
  apply (tracks_trace key).andThen
  intro k records _
  split
  · exact .pure trivial
  · apply (tracks_cursor key _).andThen
    intro k place _
    split
    · exact .pure trivial
    · exact (tracks_setCursor key _).andThen fun _ _ _ => .pure trivial

theorem tracks_stepBeyond (key : String) (recorded : Nat) :
    Tracks id whole k (stepBeyond key recorded) fun _ _ => True := by
  apply (tracks_step key).bind
  intro k outcome _ _
  split
  · exact .pure trivial
  · exact (tracks_dropCursor key).andThen fun _ _ _ => .pure trivial

theorem tracks_goForward (key : String) :
    Tracks id whole k (goForward key) fun _ _ => True := by
  apply (tracks_trace key).andThen
  intro k records _
  split
  · exact .pure trivial
  · apply (tracks_cursor key _).andThen
    intro k place _
    split
    · exact tracks_stepBeyond key _
    · split
      · exact (tracks_setCursor key _).andThen fun _ _ _ => .pure trivial
      · exact tracks_stepBeyond key _

theorem tracks_register (flow : AuthoredFlow) :
    Tracks id whole k (register flow) fun _ _ => True := by
  unfold register
  split
  · exact .pure trivial
  · refine Tracks.andThen (tracks_update ?_) fun _ _ _ => .pure trivial
    exact fun _ => rfl

/-! ## Undertakings -/

/-- What an operation gives back is watched if it is watched under the name of an outcome. -/
theorem Tracks.outcome {x : Engine (Except Failure α)} {f : α → Operation.Outcome}
    {post : Client → α → Prop} (tracks : Tracks id whole k x fun k => Given (post k))
    (kept : ∀ k a, post k a → (f a).Kept (Watched id whole k)) :
    Tracks id whole k (do return (← x).map f) fun k => Given (·.Kept (Watched id whole k)) :=
  tracks.bind fun k _ _ given => .pure (given.map (kept k))

/-- There are outcomes in which nothing is watched. -/
theorem Tracks.silent {x : Engine (Except Failure α)} {f : α → Operation.Outcome}
    (tracks : Tracks id whole k x fun _ _ => True)
    (always : ∀ k a, (f a).Kept (Watched id whole k)) :
    Tracks id whole k (do return (← x).map f) fun k => Given (·.Kept (Watched id whole k)) :=
  tracks.andThen fun k _ _ => .pure (Given.of_always (always k))

theorem tracks_perform (op : Operation) :
    Tracks id whole k op.perform fun k => Given (·.Kept (Watched id whole k)) := by
  cases op with
  | start key flow message => exact (tracks_start key flow message).outcome fun _ _ kept => kept
  | post key text => exact (tracks_post key text).outcome fun _ _ kept => kept
  | step key => exact (tracks_step key).outcome fun _ _ kept => kept
  | run key most => exact (tracks_run key most).outcome fun _ _ kept => kept
  | cancel key => exact (tracks_cancel key).silent fun _ _ => trivial
  | setRecording key enabled =>
    exact (tracks_setRecording key enabled).outcome fun _ _ kept => kept
  | resolve key call decision =>
    exact (tracks_resolve key call decision).outcome fun _ _ kept => kept
  | enableTrace key => exact (tracks_setRecording key true).outcome fun _ _ kept => kept
  | resumeTrace key =>
    have resumed : Tracks id whole k (resumeTrace key) fun k => Given (Watched id whole k) :=
      (tracks_dropCursor key).andThen fun _ _ _ => tracks_setRecording key false
    exact resumed.outcome fun _ _ kept => kept
  | currentRecord key => exact (tracks_currentRecord key).silent fun _ _ => trivial
  | goBack key => exact (tracks_goBack key).silent fun _ _ => trivial
  | goForward key => exact (tracks_goForward key).silent fun _ _ => trivial

end DialogueEngine.Engine
