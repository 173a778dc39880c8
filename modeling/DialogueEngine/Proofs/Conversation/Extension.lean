import DialogueEngine.Proofs.Conversation.Recall
import DialogueEngine.Proofs.Engine.Chartered
import DialogueEngine.Proofs.Json.Rereading

/-!
Conversations that go on. Whatever an operation makes of a conversation begins with all that was
said and recorded before; steps are only added, and what is cancelled stays so. The records of a
conversation are numbered as they stand.
-/

namespace DialogueEngine

open Json (Medium Reader Record lookup scanned)
open Json.Placed (map_eq_ok seq_eq_ok)

theorem StepRecord.index_of_read {m : Medium} {r r' : StepRecord}
    (ok : StepRecord.read m (scanned r.toJson) = .ok r') : r'.index = r.index := by
  obtain ⟨slots, -, made, reads⟩ := Record.read_scanned ["index", "node_id", "node_kind",
    "node_name", "action", "prep_result", "exec_result", "state_before", "state_after",
    "timestamp"] ok
  obtain ⟨_, timestamp, made9, -, rfl⟩ := seq_eq_ok made
  obtain ⟨_, after, made8, -, rfl⟩ := seq_eq_ok made9
  obtain ⟨_, before, made7, -, rfl⟩ := seq_eq_ok made8
  obtain ⟨_, executed, made6, -, rfl⟩ := seq_eq_ok made7
  obtain ⟨_, prepared, made5, -, rfl⟩ := seq_eq_ok made6
  obtain ⟨_, action, made4, -, rfl⟩ := seq_eq_ok made5
  obtain ⟨_, name, made3, -, rfl⟩ := seq_eq_ok made4
  obtain ⟨_, kind, made2, -, rfl⟩ := seq_eq_ok made3
  obtain ⟨_, node, made1, -, rfl⟩ := seq_eq_ok made2
  obtain ⟨index, numbered, rfl⟩ := map_eq_ok made1
  exact Reader.eq_of_count (reads.required numbered (by simp) (by simp [lookup]))

namespace Conversation

variable {c c' c'' : Conversation} {node : Node}

/-! ## Going on -/

/-- A conversation goes on from another one. -/
structure Extends (c c' : Conversation) : Prop where
  id : c'.id = c.id
  flow : c'.flow = c.flow
  createdAt : c'.createdAt = c.createdAt
  messages : c.messages <+: c'.messages
  trace : c.trace <+: c'.trace
  steps : c.steps ≤ c'.steps
  cancelled : c.cancelled = true → c'.cancelled = true

namespace Extends

theorem refl (c : Conversation) : Extends c c :=
  ⟨rfl, rfl, rfl, List.prefix_rfl, List.prefix_rfl, Nat.le_refl _, fun cancelled => cancelled⟩

theorem trans (first : Extends c c') (second : Extends c' c'') : Extends c c'' where
  id := second.id.trans first.id
  flow := second.flow.trans first.flow
  createdAt := second.createdAt.trans first.createdAt
  messages := first.messages.trans second.messages
  trace := first.trace.trans second.trace
  steps := first.steps.trans second.steps
  cancelled := fun before => second.cancelled (first.cancelled before)

end Extends

/-- The records of a conversation are numbered as they stand. -/
def Indexed (c : Conversation) : Prop :=
  ∀ (i : Nat) (r : StepRecord), c.trace[i]? = some r → r.index = i

theorem Indexed.of_trace (indexed : c.Indexed) (same : c'.trace = c.trace) : c'.Indexed := by
  rw [Indexed, same]
  exact indexed

theorem durable_indexed : Durable Indexed := by
  intro c c' indexed ok
  rw [Reader.ofText_write] at ok
  obtain ⟨_, -, back⟩ := readBack ok
  have indices : c'.trace.map (·.index) = c.trace.map (·.index) :=
    Reader.list_scanned (fun _ _ _ => StepRecord.index_of_read) back.trace
  intro i r found
  have named : (c.trace.map (·.index))[i]? = some r.index := by
    rw [← indices, List.getElem?_map, found]
    rfl
  obtain ⟨r₀, found₀, same⟩ := List.getElem?_map .. ▸ named |> Option.map_eq_some_iff.1
  rw [← same]
  exact indexed i r₀ found₀

/-- A conversation goes on, and its records stay numbered. -/
def Continues (c c' : Conversation) : Prop := c.Extends c' ∧ (c.Indexed → c'.Indexed)

theorem Continues.refl (c : Conversation) : Continues c c := ⟨.refl c, fun indexed => indexed⟩

theorem Continues.trans (first : Continues c c') (second : Continues c' c'') : Continues c c'' :=
  ⟨first.1.trans second.1, fun indexed => second.2 (first.2 indexed)⟩

/-- What changes neither trace nor steps. -/
theorem Continues.of_same (id : c'.id = c.id) (flow : c'.flow = c.flow)
    (createdAt : c'.createdAt = c.createdAt) (messages : c.messages <+: c'.messages)
    (trace : c'.trace = c.trace) (steps : c'.steps = c.steps)
    (cancelled : c.cancelled = true → c'.cancelled = true) : Continues c c' :=
  ⟨⟨id, flow, createdAt, messages, by rw [trace], by rw [steps], cancelled⟩,
    fun indexed => indexed.of_trace trace⟩

theorem continues_reopen (c : Conversation) : Continues c c.reopen := by
  unfold reopen
  split <;> exact .of_same rfl rfl rfl List.prefix_rfl rfl rfl fun cancelled => cancelled

theorem continues_push (c : Conversation) (m : Message) (now : Instant) :
    Continues c (c.push m now) :=
  .of_same rfl rfl rfl (List.prefix_append _ _) rfl rfl fun cancelled => cancelled

theorem Amends.continues (amends : c.Amends c') : Continues c c' := by
  cases amends with
  | cancelled now => exact .of_same rfl rfl rfl List.prefix_rfl rfl rfl fun _ => rfl
  | recording enabled now =>
    exact .of_same rfl rfl rfl List.prefix_rfl rfl rfl fun cancelled => cancelled
  | posted role now => exact (continues_push c _ now).trans (continues_reopen _)
  | resolved found m later =>
    obtain ⟨others, -, rfl⟩ := takeCall_spec found
    exact .of_same rfl rfl rfl (List.prefix_append _ _) rfl rfl fun cancelled => cancelled
  | givenUp f now => exact .of_same rfl rfl rfl List.prefix_rfl rfl rfl fun cancelled => cancelled
  | refused f => exact .of_same rfl rfl rfl List.prefix_rfl rfl rfl fun cancelled => cancelled

theorem continues_rewound (c : Conversation) (m : Message) (now : Instant) (g : Graph) :
    Continues c ((c.push m now).rewind g).reopen := by
  have rewound : Continues (c.push m now) ((c.push m now).rewind g) :=
    .of_same rfl rfl rfl List.prefix_rfl rfl rfl fun cancelled => cancelled
  exact (continues_push c m now).trans (rewound.trans (continues_reopen _))

/-! ## Steps -/

theorem continues_record (c : Conversation) (node : Node) (action : Action)
    (prepared executed before : Json) (now : Instant) :
    Continues c (c.record node action prepared executed before now) := by
  refine ⟨⟨rfl, rfl, rfl, List.prefix_rfl, List.prefix_append _ _, Nat.le_refl _,
    fun cancelled => cancelled⟩, fun indexed i r found => ?_⟩
  have added : (c.trace ++ [_])[i]? = some r := found
  rw [List.getElem?_append] at added
  split at added
  · exact indexed i r added
  · next beyond =>
    rw [List.getElem?_singleton] at added
    split at added
    · cases added
      show c.trace.length = i
      omega
    · cases added

theorem continues_arrive (c : Conversation) (node : Node) (cancel : Bool) :
    Continues c (c.arrive node cancel) := by
  cases cancel with
  | false =>
    exact ⟨⟨rfl, rfl, rfl, List.prefix_rfl, List.prefix_rfl, Nat.le_succ _, fun held => held⟩,
      fun indexed => indexed⟩
  | true =>
    exact ⟨⟨rfl, rfl, rfl, List.prefix_rfl, List.prefix_rfl, Nat.le_succ _, fun _ => rfl⟩,
      fun indexed => indexed⟩

theorem continues_noteRun (c : Conversation) (node : Node) (run : Visit) (before : Option Json)
    (now : Instant) : Continues c (c.noteRun node run before now) := by
  cases before with
  | none => exact .refl c
  | some before =>
    have paused : Continues c
        (if c.status = .running then { c with status := .pausedDebug } else c) := by
      split
      · exact .of_same rfl rfl rfl List.prefix_rfl rfl rfl fun cancelled => cancelled
      · exact .refl c
    exact paused.trans (continues_record _ node run.action _ _ before now)

theorem continues_conclude (c : Conversation) (node : Node) (run : Visit) (before : Option Json)
    (noted now : Instant) : Continues c (c.conclude node run before noted now) := by
  have turned : Continues c { c with next := node.next run.action } :=
    .of_same rfl rfl rfl List.prefix_rfl rfl rfl fun cancelled => cancelled
  have touched (d : Conversation) : Continues d (d.touch now) :=
    .of_same rfl rfl rfl List.prefix_rfl rfl rfl fun cancelled => cancelled
  exact turned.trans ((continues_noteRun _ node run before noted).trans (touched _))

theorem continues_noteFailure (c : Conversation) (node : Node) (before : Option Json)
    (f : Failure) (now : Instant) : Continues c (c.noteFailure node before f now) := by
  cases before with
  | none => exact .refl c
  | some before => exact continues_record c node _ _ _ before now

theorem Engaged.continues {left : List String} (engaged : Engaged c c' left)
    (free : c.cancelled = false) : Continues c c' := by
  obtain ⟨added, grown, -⟩ := engaged.grown
  have field {α : Type} (f : Conversation → α) (framed : ∀ d : Conversation, f d.frame = f d) :
      f c' = f c := by rw [← framed c', engaged.frame, framed]
  refine .of_same (field (·.id) fun _ => rfl) (field (·.flow) fun _ => rfl)
    (field (·.createdAt) fun _ => rfl) (by rw [grown]; exact List.prefix_append _ _)
    (field (·.trace) fun _ => rfl) (field (·.steps) fun _ => rfl) fun cancelled => ?_
  rw [free] at cancelled
  cases cancelled

theorem continues_pauseFor (c : Conversation) (route : Option String) (calls : List ToolCall)
    (now : Instant) : Continues c ({ c with handoff := route }.pauseFor calls now) := by
  unfold pauseFor
  split <;> exact .of_same rfl rfl rfl List.prefix_rfl rfl rfl fun cancelled => cancelled

theorem Passes.continues {action : Action} (passes : Passes node c c' action)
    (free : c.cancelled = false) : Continues c c' := by
  cases passes with
  | start kind prompt now =>
    exact .of_same rfl rfl rfl List.prefix_rfl rfl rfl fun cancelled => cancelled
  | turn kind engaged action => exact engaged.continues free
  | paused kind engaged some approvable route now =>
    exact (engaged.continues free).trans (continues_pauseFor _ route _ now)
  | listing kind engaged same => exact engaged.continues free
  | finish kind now => exact .of_same rfl rfl rfl List.prefix_rfl rfl rfl fun cancelled => cancelled

theorem continues_leavePause (c : Conversation) : Continues c c.leavePause := by
  unfold leavePause
  split
  · exact .of_same rfl rfl rfl List.prefix_rfl rfl rfl fun cancelled => cancelled
  · exact .refl c

/-- Whatever the run of a node gives goes on from the conversation that it was run for. -/
theorem Ready.arrives (ready : c.Ready) {result : Conversation × Except Failure Visit}
    (visits : Engine.Visits node c.leavePause result) : Arrives (Continues c) node result := by
  have free : c.leavePause.cancelled = false := by
    unfold leavePause
    split <;> exact ready.not_cancelled
  obtain ⟨c', result⟩ := result
  cases result with
  | ok run =>
    have visited := (continues_leavePause c).trans (Passes.continues visits free)
    exact fun cancel before noted now => visited.trans
      ((continues_arrive c' node cancel).trans (continues_conclude _ node run before noted now))
  | error f =>
    have visited := (continues_leavePause c).trans (Engaged.continues visits free)
    exact fun cancel before noted => visited.trans
      ((continues_arrive c' node cancel).trans (continues_noteFailure _ node before f noted))

end Conversation

end DialogueEngine
