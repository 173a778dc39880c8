import DialogueEngine.Command.Errand
import DialogueEngine.Proofs.History.Draining

/-!
Pending calls addressed by the beginning of their ids. A text that begins the id of one pending call
only leads to that call. So the whole id does, unless the id of another pending call goes on where
it ends; then no text leads to the call.
-/

namespace DialogueEngine

theorem Text.beginsWith_iff {front s : String} :
    Text.beginsWith front s = true ↔ front.toList <+: s.toList := by
  rw [Text.beginsWith, Option.isSome_iff_exists]
  refine exists_congr fun rest => ?_
  rw [Text.dropFront?_eq_some_iff, eq_comm]

/-- A call of a list is the only one whose id begins with a text. -/
def Singles (front : String) (calls : List ToolCall) (call : ToolCall) : Prop :=
  ∃ before after, calls = before ++ call :: after ∧ front.toList <+: call.id.toList ∧
    ∀ other ∈ before ++ after, ¬ front.toList <+: other.id.toList

section Singles

variable {front : String} {calls : List ToolCall} {call : ToolCall}

theorem Singles.only (singles : Singles front calls call) {other : ToolCall}
    (inside : other ∈ calls) (begins : front.toList <+: other.id.toList) : other = call := by
  obtain ⟨before, after, rfl, -, others⟩ := singles
  rcases List.mem_append.1 inside with there | there
  · exact absurd begins (others other (List.mem_append_left _ there))
  rcases List.mem_cons.1 there with rfl | there
  · rfl
  · exact absurd begins (others other (List.mem_append_right _ there))

theorem Singles.of_distinct (distinct : (calls.map (·.id)).Nodup) (inside : call ∈ calls)
    (begins : front.toList <+: call.id.toList)
    (only : ∀ other ∈ calls, front.toList <+: other.id.toList → other = call) :
    Singles front calls call := by
  obtain ⟨before, after, rfl⟩ := List.append_of_mem inside
  refine ⟨before, after, rfl, begins, fun other there begins' => ?_⟩
  have apart := List.nodup_middle.1 (List.map_append ▸ distinct : (_ ++ call.id :: _).Nodup)
  rw [← List.map_append] at apart
  have same : other = call := by
    refine only other ?_ begins'
    rcases List.mem_append.1 there with there | there
    · exact List.mem_append_left _ there
    · exact List.mem_append_right _ (List.mem_cons_of_mem _ there)
  subst same
  exact (List.nodup_cons.1 apart).1 (List.mem_map_of_mem there)

theorem filter_singles : (calls.filter fun call => Text.beginsWith front call.id) = [call] ↔
    Singles front calls call := by
  rw [List.filter_eq_cons_iff]
  constructor
  · rintro ⟨before, after, rfl, none, begins, rest⟩
    refine ⟨before, after, rfl, Text.beginsWith_iff.1 begins, fun other there begins' => ?_⟩
    rcases List.mem_append.1 there with there | there
    · exact none other there (Text.beginsWith_iff.2 begins')
    · exact List.filter_eq_nil_iff.1 rest other there (Text.beginsWith_iff.2 begins')
  · rintro ⟨before, after, rfl, begins, others⟩
    refine ⟨before, after, rfl, fun other there begins' => ?_, Text.beginsWith_iff.2 begins,
      List.filter_eq_nil_iff.2 fun other there begins' => ?_⟩
    · exact others other (List.mem_append_left _ there) (Text.beginsWith_iff.1 begins')
    · exact others other (List.mem_append_right _ there) (Text.beginsWith_iff.1 begins')

/-- Two calls whose ids begin with a text are not told apart by it. -/
theorem filter_several {other : ToolCall} (inside : call ∈ calls) (inside' : other ∈ calls)
    (begins : front.toList <+: call.id.toList) (begins' : front.toList <+: other.id.toList)
    (different : other ≠ call) : ∃ first second rest,
    (calls.filter fun call => Text.beginsWith front call.id) = first :: second :: rest := by
  have found : call ∈ calls.filter fun call => Text.beginsWith front call.id :=
    List.mem_filter.2 ⟨inside, Text.beginsWith_iff.2 begins⟩
  have found' : other ∈ calls.filter fun call => Text.beginsWith front call.id :=
    List.mem_filter.2 ⟨inside', Text.beginsWith_iff.2 begins'⟩
  generalize (calls.filter fun call => Text.beginsWith front call.id) = chosen at found found'
  match chosen with
  | [] => cases found
  | [only] =>
    exact absurd ((List.mem_singleton.1 found').trans (List.mem_singleton.1 found).symm) different
  | first :: second :: rest => exact ⟨first, second, rest, rfl⟩

end Singles

namespace Engine

variable {id front : String} {s s' : Situation} {c : Conversation} {call : ToolCall} {table : Bool}

section Finding

variable (loads : load id s = .done s' (.ok c))
include loads

theorem findPending_loaded : findPending id front s =
    match c.pending.filter fun call => Text.beginsWith front call.id with
    | [call] => .done s' (.ok call)
    | [] => .done s' (.error (.notPending id front))
    | _ => .done s' (.error (.execution ("Tool call prefix '" ++ front ++ "' is ambiguous"))) := by
  have reads : pendingCalls id s = .done s' (.ok c.pending) := by
    unfold pendingCalls
    rw [Activity.bind_of_done loads]
    rfl
  unfold findPending
  rw [Activity.bind_of_done reads]
  dsimp only
  generalize (c.pending.filter fun call => Text.beginsWith front call.id) = chosen
  match chosen with
  | [] => rfl
  | [_] => rfl
  | _ :: _ :: _ => rfl

theorem findPending_ok : findPending id front s = .done s' (.ok call) ↔
    Singles front c.pending call := by
  rw [findPending_loaded loads, ← filter_singles]
  generalize (c.pending.filter fun call => Text.beginsWith front call.id) = chosen
  match chosen with
  | [] => simp
  | [_] => simp
  | _ :: _ :: _ => simp

theorem findPending_several {other : ToolCall} (inside : call ∈ c.pending)
    (inside' : other ∈ c.pending) (begins : front.toList <+: call.id.toList)
    (begins' : front.toList <+: other.id.toList) (different : other ≠ call) :
    findPending id front s =
      .done s' (.error (.execution ("Tool call prefix '" ++ front ++ "' is ambiguous"))) := by
  obtain ⟨first, second, rest, several⟩ :=
    filter_several inside inside' begins begins' different
  rw [findPending_loaded loads, several]

/-- Without failures of the store what is read is what the store has. -/
theorem found_of_loads {regular : Conversation → Prop} (dependable : s.store.Dependable regular) :
    s' = s ∧ s.store.backing.get id = .ok (some c) := by
  by_cases there : ∃ c', s.store.backing.get id = .ok (some c')
  · obtain ⟨c', found⟩ := there
    have same := loads.symm.trans (load_found dependable found)
    cases same
    exact ⟨rfl, found⟩
  · obtain ⟨f, fails⟩ := load_unfound dependable fun c' found => there ⟨c', found⟩
    cases loads.symm.trans fails

/-- A decision about the call that a text leads to is a decision about that call. -/
theorem resolve_addressed {decision : Decision} (distinct : (c.pending.map (·.id)).Nodup)
    (finds : findPending id front s = .done s' (.ok call)) (free : id ∉ s.claimed)
    (unfailing : s.store.Unfailing table) :
    (Errand.resolve id front decision s).Follows (·.store.Unfailing table) (fun _ _ => True)
      (fun past outcome s'' => past.map (·.1) = (c.asksFor call.id decision).toList ∧
        ∃ m, m.Resolves (c.next <|> c.current) call.id ∧
          outcome = .ok ((c.drained [call.id] [m]).decisionReport call decision) ∧
          Puts id table (c.drained [call.id] [m]) (.ok (c.drained [call.id] [m])) s'') [] := by
  obtain ⟨rfl, found⟩ := found_of_loads loads unfailing.dependable
  obtain ⟨before, after, pending, -, -⟩ := (findPending_ok loads).1 finds
  have inside : call.id ∈ c.pending.map (·.id) := by
    rw [pending]
    exact List.mem_map_of_mem (List.mem_append_right _ List.mem_cons_self)
  unfold Errand.resolve
  rw [Activity.bind_of_done finds]
  refine Interaction.Follows.andThen (resolve_pending free unfailing found decision distinct inside
    []) fun past outcome s'' holds => ?_
  obtain ⟨asked, m, resolves, puts⟩ := holds
  obtain rfl := puts.outcome
  exact ⟨asked, m, resolves, rfl, puts⟩

end Finding

/-- Looking for a pending call by the beginning of its id is exact: it gives the call whose id, and
no other pending one's, begins with the text. Where the ids are distinct, the whole id leads to a
call unless the id of another pending call begins with it, and then every text that begins the id
is refused as ambiguous, the id itself too. What is decided about a text that leads to a call is
decided about that call. -/
theorem pending_addressed (loads : load id s = .done s' (.ok c)) :
    (∀ front call, findPending id front s = .done s' (.ok call) ↔ Singles front c.pending call) ∧
    ((c.pending.map (·.id)).Nodup → ∀ call ∈ c.pending,
      ((∀ other ∈ c.pending, call.id.toList <+: other.id.toList → other = call) →
        findPending id call.id s = .done s' (.ok call)) ∧
      (∀ other ∈ c.pending, other ≠ call → call.id.toList <+: other.id.toList → ∀ front : String,
        front.toList <+: call.id.toList → findPending id front s =
          .done s' (.error (.execution ("Tool call prefix '" ++ front ++ "' is ambiguous")))) ∧
      ∀ front decision table, findPending id front s = .done s' (.ok call) → id ∉ s.claimed →
        s.store.Unfailing table →
        (Errand.resolve id front decision s).Follows (·.store.Unfailing table) (fun _ _ => True)
          (fun past outcome s'' => past.map (·.1) = (c.asksFor call.id decision).toList ∧
            ∃ m, m.Resolves (c.next <|> c.current) call.id ∧
              outcome = .ok ((c.drained [call.id] [m]).decisionReport call decision) ∧
              Puts id table (c.drained [call.id] [m]) (.ok (c.drained [call.id] [m])) s'') []) := by
  refine ⟨fun front call => findPending_ok loads, fun distinct call inside => ⟨?_, ?_, ?_⟩⟩
  · intro only
    exact (findPending_ok loads).2 (.of_distinct distinct inside List.prefix_rfl only)
  · intro other inside' different longer front begins
    exact findPending_several loads inside inside' begins (begins.trans longer) different
  · intro front decision table finds free unfailing
    exact resolve_addressed loads distinct finds free unfailing

/-- A conversation in which one of the calls that wait has an id that goes on where the other's
ends. -/
def numbered : Conversation :=
  { Conversation.fresh "c" "f" default with
    next := some "ask"
    current := some "ask"
    status := .awaitingApproval
    pending := [⟨"call_1", "_-_-_web_-_-_search", .object []⟩,
      ⟨"call_10", "_-_-_web_-_-_read", .object []⟩] }

def numberedStored : Situation :=
  .fresh .standard ⟨Backing.put numbered (.memory ∅), [], []⟩ default

/-- The call whose id is longer is found by it; the other one is found by no text. -/
theorem numbered_addressed :
    findPending "c" "call_10" numberedStored = .done numberedStored
      (.ok ⟨"call_10", "_-_-_web_-_-_read", .object []⟩) ∧
    findPending "c" "call_1" numberedStored = .done numberedStored
      (.error (.execution "Tool call prefix 'call_1' is ambiguous")) ∧
    ∀ front, findPending "c" front numberedStored ≠ .done numberedStored
      (.ok ⟨"call_1", "_-_-_web_-_-_search", .object []⟩) := by
  have loads : load "c" numberedStored = .done numberedStored (.ok numbered) :=
    load_found (⟨rfl, rfl, fun _ => False.elim⟩ : numberedStored.store.Dependable fun _ => False)
      (Backing.put_get (.memory ∅) fun written => by cases written)
  obtain ⟨exact, found⟩ := pending_addressed loads
  have distinct : (numbered.pending.map (·.id)).Nodup := by decide
  obtain ⟨longer, -, -⟩ := found distinct _ (List.mem_cons_of_mem _ List.mem_cons_self)
  obtain ⟨-, shorter, -⟩ := found distinct _ List.mem_cons_self
  refine ⟨longer (by decide), shorter _ (List.mem_cons_of_mem _ List.mem_cons_self) (by decide)
    (by decide) "call_1" (by decide), fun front finds => ?_⟩
  have single := (exact front _).1 finds
  have begins : front.toList <+: "call_1".toList := by
    obtain ⟨-, -, -, begins, -⟩ := single
    exact begins
  have same := single.only (List.mem_cons_of_mem _ List.mem_cons_self)
    (begins.trans (by decide : "call_1".toList <+: "call_10".toList))
  exact absurd same (by decide)

end Engine

end DialogueEngine
