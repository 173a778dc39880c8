import DialogueEngine.Proofs.Conversation.Extension
import DialogueEngine.Proofs.History.Debugging
import DialogueEngine.Proofs.History.Pausing

/-!
Looking through the records of a conversation, as the moves of a cursor over them. A move between
records reads what is stored and changes nothing but the place of the cursor; a move beyond the
latest record is one step, and leaves the cursor at the latest record again.
-/

namespace DialogueEngine

namespace Situation

/-- Where the cursor of a conversation stands among so many records: where it was placed, but no
further than the latest. -/
def standing (s : Situation) (id : String) (size : Nat) : Nat :=
  min ((s.cursors.get? id).getD (size - 1)) (size - 1)

/-- A situation with the cursor of a conversation placed. -/
def placing (s : Situation) (id : String) (place : Nat) : Situation :=
  { s with cursors := s.cursors.insert id place }

/-- A situation in which the cursor of a conversation follows the latest record. -/
def following (s : Situation) (id : String) : Situation :=
  { s with cursors := s.cursors.erase id }

variable {s : Situation} {id : String} {size place : Nat}

theorem standing_lt (some : 0 < size) : s.standing id size < size :=
  lt_of_le_of_lt (Nat.min_le_right _ _) (Nat.pred_lt some.ne')

theorem standing_placing (inside : place < size) : (s.placing id place).standing id size = place := by
  simp only [standing, placing, Table.get?_insert, if_true, Option.getD_some]
  exact Nat.min_eq_left (Nat.le_pred_of_lt inside)

theorem standing_following (size : Nat) : (s.following id).standing id size = size - 1 := by
  simp [standing, following]

end Situation

/-! ## Moves -/

/-- A move of the cursor. -/
inductive Move where
  | stay
  | back
  | forth
  deriving DecidableEq

namespace Move

/-- Where a move leads among so many records, unless it leads beyond them. -/
def lead (size place : Nat) : Move → Option Nat
  | .stay => some place
  | .back => some (place - 1)
  | .forth => if place + 1 < size then some (place + 1) else none

/-- The places that moves lead to one after the other, unless one of them leads beyond the
records. -/
def along (size : Nat) : List Move → Nat → Option (List Nat)
  | [], _ => some []
  | m :: moves, place => do
    let next ← m.lead size place
    return next :: (← along size moves next)

variable {size place : Nat}

theorem lead_lt {m : Move} {next : Nat} (inside : place < size)
    (leads : m.lead size place = some next) : next < size := by
  cases m with
  | stay => exact Option.some.inj leads ▸ inside
  | back => exact Option.some.inj leads ▸ lt_of_le_of_lt (Nat.sub_le _ _) inside
  | forth =>
    rw [lead] at leads
    by_cases further : place + 1 < size
    · rw [if_pos further] at leads
      exact Option.some.inj leads ▸ further
    · rw [if_neg further] at leads
      cases leads

theorem along_forth (k : Nat) (room : place + k < size) :
    along size (List.replicate k .forth) place =
      some ((List.range k).map (place + 1 + ·)) := by
  induction k generalizing place with
  | zero => rfl
  | succ k ih =>
    have leads : Move.forth.lead size place = some (place + 1) := if_pos (by omega)
    have later : (List.range k).map (place + 1 + 1 + ·) =
        (List.range k).map ((place + 1 + ·) ∘ Nat.succ) :=
      List.map_congr_left fun i _ => by simp only [Function.comp_apply]; omega
    rw [List.replicate_succ, along, leads, List.range_succ_eq_map, List.map_cons, List.map_map,
      ← later]
    simp only [bind, Option.bind, pure, ih (show place + 1 + k < size by omega), Nat.add_zero]

theorem along_back (k : Nat) (enough : k ≤ place) {moves : List Move} {places : List Nat}
    (goesOn : along size moves (place - k) = some places) :
    along size (List.replicate k .back ++ moves) place =
      some ((List.range k).map (place - 1 - ·) ++ places) := by
  induction k generalizing place with
  | zero => simpa using goesOn
  | succ k ih =>
    have leads : Move.back.lead size place = some (place - 1) := rfl
    have goesOn' : along size moves (place - 1 - k) = some places := by
      rwa [Nat.sub_sub, Nat.add_comm]
    have later : (List.range k).map (place - 1 - 1 - ·) =
        (List.range k).map ((place - 1 - ·) ∘ Nat.succ) :=
      List.map_congr_left fun i _ => by simp only [Function.comp_apply]; omega
    rw [List.replicate_succ, List.cons_append, along, leads, List.range_succ_eq_map,
      List.map_cons, List.map_map, ← later]
    simp only [bind, Option.bind, pure, ih (by omega) goesOn', Nat.sub_zero, List.cons_append]

/-- Going back some times and forth as often leads through the same records. -/
theorem along_back_forth (k : Nat) (inside : place < size) (enough : k ≤ place) :
    along size (List.replicate k .back ++ List.replicate k .forth) place =
      some ((List.range k).map (place - 1 - ·) ++ (List.range k).map (place - k + 1 + ·)) :=
  along_back k enough (along_forth k (by omega))

/-- As many moves forth as back lead back to where the cursor was. -/
theorem last_back_forth (k : Nat) (enough : k + 1 ≤ place) :
    ((List.range (k + 1)).map (place - 1 - ·) ++
      (List.range (k + 1)).map (place - (k + 1) + 1 + ·)).getLast? = some place := by
  have last : place - (k + 1) + 1 + k = place := by omega
  rw [List.range_succ, List.map_append, List.map_append, ← List.append_assoc, List.map_singleton,
    List.map_singleton, List.getLast?_concat, last]

end Move

/-- What asks nothing follows every rule. -/
theorem Interaction.Ends.follows {σ Q α : Type} {A : Q → Type} {post : α → σ → Prop}
    {inv : σ → Prop} {rule : List (Sigma A) → Q → Prop} {past : List (Sigma A)}
    {x : Interaction σ Q A α} (ends : x.Ends post) :
    x.Follows inv rule (fun _ a s => post a s) past := by
  obtain ⟨s, a, rfl, holds⟩ := ends.eq_done
  exact holds

namespace Engine

variable {id : String} {s s' : Situation} {c : Conversation}

/-- A store that refuses nothing. -/
abbrev Serving (s : Situation) : Prop := s.store.Dependable fun _ => False

/-! ## What a step leaves in the store -/

/-- A conversation has gone on, and what has become of it is what was stored last. -/
structure Wrote (c d : Conversation) (store : Store) : Prop where
  continues : c.Continues d
  kept : store.Keeps d

theorem failStep_wrote {d : Conversation} (serving : Serving s) (goesOn : c.Continues d)
    (f : Failure) : (failStep d f s).Ends fun o s' => Wrote c o.conversation s'.store := by
  refine (failStep_ends d f s).mono (fun _ asked => asked) ?_
  rintro o s' ⟨now, rfl, same⟩
  have written : (s.store.put (d.giveUp f now)).1 = .ok () := by
    simp [Store.put, Store.takeRefusal, serving.writes]
  exact ⟨goesOn.trans (Conversation.Amends.givenUp f now).continues,
    (Store.keeps_of_put written).congr
      (congrArg (Backing.entry d.id) (Situation.backing_of_core same))⟩

theorem completeStep_wrote {node : Node} {d : Conversation} {before : Option Json} {run : Visit}
    (serving : Serving s)
    (goesOn : ∀ noted now, c.Continues (d.conclude node run before noted now)) :
    (completeStep node d before run s).Ends fun o s' => Wrote c o.conversation s'.store := by
  refine (completeStep_puts serving node d before run).mono (fun _ asked => asked) ?_
  rintro o s' ⟨noted, now, rfl, put, -⟩
  exact ⟨goesOn noted now, put.keeps serving⟩

/-- The settings are what they are, and the store refuses nothing. -/
structure Served (settings : Settings) (s : Situation) : Prop where
  settings : s.settings = settings
  serving : Serving s

variable {settings : Settings}

theorem enduring_served : Enduring (Served settings) where
  refl _ served := served
  trans first second served := second (first served)
  published _ _ _ served := ⟨served.settings, served.serving⟩
  ticked _ served := ⟨served.settings, served.serving⟩

theorem stepNode_wrote (served : Served settings s) (ready : c.Ready) (node : Node)
    (past : List Exchange) : (stepNode node c s).Follows (Served settings) (fun _ _ => True)
      (fun _ o s' => Wrote c o.conversation s'.store) past := by
  have told : publish (.stepStarted c.leavePause.id node.id) s = .done { s with
    published := s.published ++ [.stepStarted c.leavePause.id node.id] } () := rfl
  have kept : Served settings { s with
    published := s.published ++ [.stepStarted c.leavePause.id node.id] } :=
    ⟨served.settings, served.serving⟩
  have visited : (visit node c.leavePause { s with
      published := s.published ++ [.stepStarted c.leavePause.id node.id] }).Follows
        (Served settings) (fun _ _ => True)
        (fun _ result s => Served settings s ∧ Visits node c.leavePause result) past :=
    ((follows_of_stays (stays_visit enduring_served node c.leavePause _ _ fun kept => kept) kept).and
      (visit_follows ready (fun _ => Served.settings) node kept)).mono (fun _ _ _ => trivial)
        fun _ _ _ holds => holds
  unfold stepNode
  dsimp only
  generalize (if c.leavePause.debugMode = true then some c.leavePause.snapshot else none) = before
  rw [Activity.bind_of_done told]
  apply visited.andThen
  rintro past₁ ⟨c', result⟩ s₁ ⟨served₁, visits⟩
  have continues := ready.arrives visits
  refine Interaction.Ends.follows ?_
  apply Activity.meets_bind (takeCancel_ends c'.id s₁).meets
  rintro cancel _ ⟨rfl, -⟩
  have serving : Serving (s₁.taking c'.id) := served₁.serving
  cases result with
  | ok run =>
    exact completeStep_wrote serving (continues cancel before)
  | error f =>
    cases before with
    | none => exact failStep_wrote serving (continues cancel none default) f
    | some before =>
      have ticks : (now (s₁.taking c'.id)).Ends fun _ s₂ => Serving s₂ := serving
      apply Activity.meets_bind ticks
      intro noted s₂ serving₂
      exact failStep_wrote serving₂ (continues cancel (some before) noted) f

/-- What a step leaves of a conversation is what it has become, if that was written, or what it
was. -/
def Deposits (c : Conversation) (before : Store) (d : Conversation) (after : Store) : Prop :=
  Wrote c d after ∨ d = c ∧ after.backing = before.backing

theorem pickUpCancel_deposits (served : Served settings s) :
    (pickUpCancel c s).Ends fun c' s' => Served settings s' ∧ Deposits c s.store c' s'.store := by
  have taken : Served settings (s.taking c.id) := ⟨served.settings, served.serving⟩
  apply Activity.meets_bind (takeCancel_ends c.id s)
  rintro cancel _ ⟨rfl, -⟩
  split
  · have ticks : (now (s.taking c.id)).Ends fun _ s₁ => Served settings s₁ :=
      ⟨served.settings, served.serving⟩
    apply Activity.meets_bind ticks
    intro now s₁ served₁
    have writes : (write ({ c with cancelled := true }.touch now) s₁).Ends fun _ s₂ =>
        Served settings s₂ ∧ s₂.store.Keeps ({ c with cancelled := true }.touch now) := by
      rw [write_done served₁.serving]
      exact ⟨⟨served₁.settings, served₁.serving.of_put _⟩, HasPut.keeps rfl served₁.serving⟩
    apply Activity.meets_bind writes
    rintro _ s₂ ⟨served₂, kept⟩
    exact ⟨served₂, .inl ⟨(Conversation.Amends.cancelled now).continues, kept⟩⟩
  · exact ⟨taken, .inr ⟨rfl, rfl⟩⟩

/-- A step goes on with a conversation, and what becomes of it is what is stored. -/
theorem advance_deposits (served : Served settings s) (past : List Exchange) :
    (advance c s).Follows (Served settings) (fun _ _ => True)
      (fun _ o s' => Deposits c s.store o.conversation s'.store) past := by
  apply (pickUpCancel_deposits served).follows.andThen
  rintro past₁ c₁ s₁ ⟨served₁, deposits⟩
  split
  · exact deposits
  next unpaused =>
  split
  · exact deposits
  next unfinished =>
  split
  · exact deposits
  next going =>
  have ready : c₁.Ready := ⟨unpaused, unfinished, by simpa using going⟩
  have before : c.Continues c₁ := by
    rcases deposits with wrote | ⟨rfl, -⟩
    · exact wrote.continues
    · exact .refl c₁
  apply (graph_ends c₁.flow s₁).follows.andThen
  rintro past₂ found s₂ rfl
  cases found with
  | error f =>
    refine Interaction.Ends.follows ?_
    exact (failStep_wrote served₁.serving before f).mono (fun _ asked => asked)
      fun _ _ wrote => .inl wrote
  | ok g =>
    exact (stepNode_wrote served₁ ready _ past₂).mono (fun _ _ obeys => obeys)
      fun _ _ _ wrote => .inl ⟨before.trans wrote.continues, wrote.kept⟩

/-- What a step of a stored conversation comes to: a record is added at most, and what becomes of
the conversation is stored. -/
theorem step_shown (serving : Serving s) (free : id ∉ s.claimed)
    (found : s.store.backing.get id = .ok (some c)) :
    (step id s).Follows (Served s.settings) (fun _ _ => True) (fun _ reply s' => ∃ o,
      reply = .ok o ∧ Recording (RunsNode s c) c o ∧ Deposits c s.store o.conversation s'.store) [] := by
  have loaded : load id (seizing id s) = .done (seizing id s) (.ok c) := load_found serving found
  let advances : Conversation → Engine (Except Failure StepResult) :=
    fun c => do return .ok (← advance c)
  have taken : (advances c (seizing id s)).Follows (Served s.settings) (fun _ _ => True)
      (fun _ reply s' => ∃ o, reply = .ok o ∧ Deposits c s.store o.conversation s'.store) [] := by
    have served : Served s.settings (seizing id s) := ⟨rfl, serving⟩
    apply (advance_deposits served []).andThen
    intro past o s' deposits
    exact ⟨o, rfl, deposits⟩
  have opened : step id s =
      (advances c (seizing id s)).andThen fun reply s' => .done (releasing id s') reply :=
    claiming_found advances free loaded
  have deposited : (step id s).Follows (Served s.settings) (fun _ _ => True) (fun _ reply s' =>
      ∃ o, reply = .ok o ∧ Deposits c s.store o.conversation s'.store) [] := by
    rw [opened]
    exact taken.andThen fun _ _ _ holds => holds
  have recorded : (step id s).Follows (Served s.settings) _ _ [] :=
    (step_records serving free found).follows fun _ => Served.settings
  refine (recorded.and deposited).mono (fun _ _ _ => trivial) ?_
  rintro past reply s' ⟨⟨o, rfl, records⟩, ⟨o', same, deposits⟩⟩
  cases same
  exact ⟨o, rfl, records, deposits⟩

/-! ## The cursor -/

section Cursor

variable (serving : Serving s) (found : s.store.backing.get id = .ok (some c))
include serving found

theorem trace_found : trace id s = .done s (.ok c.trace) := by
  unfold trace
  rw [Activity.bind_of_done (load_found serving found)]
  rfl

omit serving found in
theorem cursor_some {size : Nat} (recorded : size ≠ 0) (s : Situation) :
    cursor id size s = .done s (some (s.standing id size)) := by
  unfold cursor
  rw [if_neg recorded]
  rfl

theorem currentRecord_eq :
    currentRecord id s = .done s (.ok c.trace[s.standing id c.trace.length]?) := by
  unfold currentRecord
  rw [Activity.bind_of_done (trace_found serving found)]
  by_cases none : c.trace.length = 0
  · have empty := List.length_eq_zero_iff.1 none
    rw [empty]
    rfl
  · exact Activity.bind_of_done (cursor_some none s)

theorem goBack_eq : goBack id s =
    .done (if c.trace = [] then s else s.placing id (s.standing id c.trace.length - 1))
      (.ok c.trace[s.standing id c.trace.length - 1]?) := by
  unfold goBack
  rw [Activity.bind_of_done (trace_found serving found)]
  by_cases none : c.trace = []
  · rw [none]
    rfl
  · rw [if_neg none]
    exact Activity.bind_of_done (cursor_some (mt List.length_eq_zero_iff.1 none) s)

theorem goForward_within (further : s.standing id c.trace.length + 1 < c.trace.length) :
    goForward id s = .done (s.placing id (s.standing id c.trace.length + 1))
      (.ok c.trace[s.standing id c.trace.length + 1]?) := by
  unfold goForward
  rw [Activity.bind_of_done (trace_found serving found)]
  refine (Activity.bind_of_done (cursor_some (by omega) s)).trans ?_
  dsimp only
  rw [if_pos further]
  rfl

/-- Where there is no further record, going forward is one step; the cursor follows what it
records. -/
theorem goForward_beyond (latest : c.trace.length ≤ s.standing id c.trace.length + 1) :
    goForward id s = (step id s).andThen fun reply s' =>
      match reply with
      | .error f => .done s' (.error f)
      | .ok o => .done (s'.following id)
          (.ok (if o.conversation.trace.length ≤ c.trace.length then none
            else o.conversation.trace.getLast?)) := by
  have beyond : stepBeyond id c.trace.length s = (step id s).andThen fun reply s' =>
      match reply with
      | .error f => .done s' (.error f)
      | .ok o => .done (s'.following id)
          (.ok (if o.conversation.trace.length ≤ c.trace.length then none
            else o.conversation.trace.getLast?)) := by
    unfold stepBeyond
    rw [Activity.bind_run]
    congr
    funext reply s'
    cases reply <;> rfl
  rw [← beyond]
  unfold goForward
  rw [Activity.bind_of_done (trace_found serving found)]
  by_cases none : c.trace.length = 0
  · rw [List.length_eq_zero_iff.1 none]
    rfl
  · refine (Activity.bind_of_done (cursor_some none s)).trans ?_
    dsimp only
    rw [if_neg (by omega)]

/-- A step beyond the latest record shows the record that it adds, if it adds one. -/
theorem goForward_shows (latest : c.trace.length ≤ s.standing id c.trace.length + 1)
    (free : id ∉ s.claimed) :
    (goForward id s).Follows (Served s.settings) (fun _ _ => True) (fun _ reply s' => ∃ o shown,
      reply = .ok shown ∧ o.conversation.trace = c.trace ++ shown.toList ∧
        Recording (RunsNode s c) c o ∧ Deposits c s.store o.conversation s'.store ∧
        ∀ size, s'.standing id size = size - 1) [] := by
  rw [goForward_beyond serving found latest]
  apply (step_shown serving free found).andThen
  rintro past _ s' ⟨o, rfl, records, deposits⟩
  refine ⟨o, _, rfl, ?_, records, deposits, Situation.standing_following⟩
  have quiet (same : o.conversation.trace = c.trace) : o.conversation.trace = c.trace ++
      (if o.conversation.trace.length ≤ c.trace.length then none
        else o.conversation.trace.getLast?).toList := by
    rw [same, if_pos (Nat.le_refl _), Option.toList_none, List.append_nil]
  by_cases runs : RunsNode s c
  · have run := records.1 runs
    cases watched : c.debugMode with
    | false => exact quiet (run.unrecorded watched)
    | true =>
      obtain ⟨r, added, -⟩ := run.recorded watched
      have longer : ¬ o.conversation.trace.length ≤ c.trace.length := by simp [added]
      rw [if_neg longer, added, List.getLast?_concat]
      rfl
  · exact quiet (congrArg (·.2.1) (records.2 runs) :)

end Cursor

/-! ## Sequences of moves -/

def move (id : String) : Move → Engine (Except Failure (Option StepRecord))
  | .stay => currentRecord id
  | .back => goBack id
  | .forth => goForward id

/-- Moves one after the other. -/
def moveAll (id : String) : List Move → Engine (List (Except Failure (Option StepRecord)))
  | [] => return []
  | m :: moves => do
    let reply ← move id m
    return reply :: (← moveAll id moves)

/-- A move between records shows the one it leads to, and does nothing but place the cursor. -/
theorem move_leads {m : Move} {place : Nat} (serving : Serving s)
    (found : s.store.backing.get id = .ok (some c)) (recorded : c.trace ≠ [])
    (leads : m.lead c.trace.length (s.standing id c.trace.length) = some place) :
    ∃ cursors, move id m s = .done { s with cursors } (.ok c.trace[place]?) ∧
      ({ s with cursors } : Situation).standing id c.trace.length = place := by
  have inside : place < c.trace.length :=
    Move.lead_lt (Situation.standing_lt (List.length_pos_iff.2 recorded)) leads
  cases m with
  | stay =>
    cases leads
    exact ⟨s.cursors, currentRecord_eq serving found, rfl⟩
  | back =>
    cases leads
    refine ⟨_, (goBack_eq serving found).trans ?_, Situation.standing_placing inside⟩
    rw [if_neg recorded]
    rfl
  | forth =>
    by_cases further : s.standing id c.trace.length + 1 < c.trace.length
    · obtain rfl := Option.some.inj ((if_pos further).symm.trans leads)
      exact ⟨_, goForward_within serving found further, Situation.standing_placing inside⟩
    · cases (if_neg further).symm.trans leads

/-- Moves between records show those they lead to, and do nothing but place the cursor. -/
theorem moveAll_along {moves : List Move} {places : List Nat} (serving : Serving s)
    (found : s.store.backing.get id = .ok (some c)) (recorded : c.trace ≠ [])
    (along : Move.along c.trace.length moves (s.standing id c.trace.length) = some places) :
    ∃ cursors, moveAll id moves s = .done { s with cursors }
        (places.map fun place => .ok c.trace[place]?) ∧
      ({ s with cursors } : Situation).standing id c.trace.length =
        places.getLastD (s.standing id c.trace.length) := by
  induction moves generalizing s places with
  | nil =>
    cases along
    exact ⟨s.cursors, rfl, rfl⟩
  | cons m moves ih =>
    obtain ⟨place, leads, rest⟩ := Option.bind_eq_some_iff.1 along
    obtain ⟨places, along', same⟩ := Option.bind_eq_some_iff.1 rest
    cases same
    obtain ⟨cursors, moved, stands⟩ := move_leads serving found recorded leads
    obtain ⟨cursors', went, stands'⟩ := ih (s := { s with cursors }) serving found (stands ▸ along')
    refine ⟨cursors', ?_, ?_⟩
    · unfold moveAll
      rw [Activity.bind_of_done moved, Activity.bind_of_done went]
      rfl
    · rw [stands', stands]
      cases places <;> rfl

/-- Looking through the records is moving a cursor over them, as long as the store refuses nothing.
The cursor stands at a record if there is one. Looking at it, going back, and going forth where
there is a further record show the record that the cursor comes to, ask nothing, and leave
everything but the cursor as it is. Going forth from the latest record, or without records, is one
step; the record that the step adds is shown, if it adds one, and the cursor stands at the latest
again. So moves that stay among the records only look at them, and as many moves forth as back lead
to the same record. -/
theorem records_navigated (serving : Serving s) (found : s.store.backing.get id = .ok (some c)) :
    (c.trace ≠ [] → s.standing id c.trace.length < c.trace.length) ∧
    currentRecord id s = .done s (.ok c.trace[s.standing id c.trace.length]?) ∧
    goBack id s =
      .done (if c.trace = [] then s else s.placing id (s.standing id c.trace.length - 1))
        (.ok c.trace[s.standing id c.trace.length - 1]?) ∧
    (s.standing id c.trace.length + 1 < c.trace.length →
      goForward id s = .done (s.placing id (s.standing id c.trace.length + 1))
        (.ok c.trace[s.standing id c.trace.length + 1]?)) ∧
    (c.trace.length ≤ s.standing id c.trace.length + 1 →
      (goForward id s = (step id s).andThen fun reply s' =>
        match reply with
        | .error f => .done s' (.error f)
        | .ok o => .done (s'.following id)
            (.ok (if o.conversation.trace.length ≤ c.trace.length then none
              else o.conversation.trace.getLast?))) ∧
      (id ∈ s.claimed → goForward id s = .done s (.error (.busy id))) ∧
      (id ∉ s.claimed →
        (goForward id s).Follows (Served s.settings) (fun _ _ => True) (fun _ reply s' =>
          ∃ o shown, reply = .ok shown ∧ o.conversation.trace = c.trace ++ shown.toList ∧
            Recording (RunsNode s c) c o ∧ Deposits c s.store o.conversation s'.store ∧
            ∀ size, s'.standing id size = size - 1) [])) ∧
    (∀ moves places, c.trace ≠ [] →
      Move.along c.trace.length moves (s.standing id c.trace.length) = some places →
      ∃ cursors, moveAll id moves s = .done { s with cursors }
          (places.map fun place => .ok c.trace[place]?) ∧
        ({ s with cursors } : Situation).standing id c.trace.length =
          places.getLastD (s.standing id c.trace.length)) ∧
    ∀ k, c.trace ≠ [] → k ≤ s.standing id c.trace.length → ∃ replies cursors,
      moveAll id (List.replicate k .back ++ List.replicate k .forth) s =
        .done { s with cursors } replies ∧
      (0 < k → replies.getLast? = some (.ok c.trace[s.standing id c.trace.length]?)) ∧
      currentRecord id { s with cursors } =
        .done { s with cursors } (.ok c.trace[s.standing id c.trace.length]?) := by
  refine ⟨fun recorded => Situation.standing_lt (List.length_pos_iff.2 recorded),
    currentRecord_eq serving found, goBack_eq serving found, goForward_within serving found,
    fun latest => ⟨goForward_beyond serving found latest, ?_, goForward_shows serving found latest⟩,
    fun moves places recorded => moveAll_along serving found recorded, ?_⟩
  · intro busy
    rw [goForward_beyond serving found latest, step, claiming_busy _ busy]
    rfl
  · intro k recorded enough
    have inside : s.standing id c.trace.length < c.trace.length :=
      Situation.standing_lt (List.length_pos_iff.2 recorded)
    obtain ⟨cursors, moved, stands⟩ := moveAll_along serving found recorded
      (Move.along_back_forth k inside enough)
    refine ⟨_, cursors, moved, ?_, ?_⟩
    · intro moves
      obtain ⟨k, rfl⟩ := Nat.exists_eq_add_one.2 moves
      rw [List.getLast?_map, Move.last_back_forth k enough]
      rfl
    · have shows := currentRecord_eq (s := { s with cursors }) serving found
      rw [stands] at shows
      cases k with
      | zero => exact shows
      | succ k => rwa [List.getLastD_eq_getLast?, Move.last_back_forth k enough] at shows

/-- A conversation with three records. -/
def reviewed : Conversation :=
  { Conversation.fresh "c" "f" default with
    debugMode := true
    trace := [{ (default : StepRecord) with index := 0 }, { (default : StepRecord) with index := 1 },
      { (default : StepRecord) with index := 2 }] }

def reviewedStored : Situation :=
  .fresh .standard ⟨Backing.put reviewed (.memory ∅), [], []⟩ default

theorem reviewed_navigated :
    goBack "c" reviewedStored = .done (reviewedStored.placing "c" 1)
      (.ok (some { (default : StepRecord) with index := 1 })) ∧
    ∃ replies cursors, moveAll "c" [.back, .back, .forth, .forth] reviewedStored =
        .done { reviewedStored with cursors } replies ∧
      replies.getLast? = some (.ok (some { (default : StepRecord) with index := 2 })) ∧
      currentRecord "c" { reviewedStored with cursors } =
        .done { reviewedStored with cursors }
          (.ok (some { (default : StepRecord) with index := 2 })) := by
  have serving : Serving reviewedStored := ⟨rfl, rfl, fun _ => False.elim⟩
  have found : reviewedStored.store.backing.get "c" = .ok (some reviewed) :=
    Backing.put_get (.memory ∅) fun written => by cases written
  obtain ⟨-, -, back, -, -, -, comes⟩ := records_navigated serving found
  obtain ⟨replies, cursors, moved, last, shows⟩ := comes 2 (by simp [reviewed]) (by decide)
  exact ⟨back, replies, cursors, moved, last (by decide), shows⟩

end Engine

end DialogueEngine
