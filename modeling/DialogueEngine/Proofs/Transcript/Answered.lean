import DialogueEngine.Message

/-!
Transcripts and the tool calls that they leave open. A message of the model that asks for tools
opens its calls; nothing but messages that answer them may follow until each of them is answered. A
transcript that leaves nothing open is a sequence of blocks, and this is what a model accepts.
-/

namespace DialogueEngine.Transcript

/-- Messages that lead from open calls to open calls, which are known by their ids and lie in no
particular order. -/
inductive Leads : List String → List Message → List String → Prop
  | none {due left : List String} (same : due.Perm left) : Leads due [] left
  | user {m : Message} {rest : List Message} {left : List String} (role : m.role = .user)
      (later : Leads [] rest left) : Leads [] (m :: rest) left
  | assistant {m : Message} {rest : List Message} {left : List String}
      (role : m.role = .assistant) (later : Leads (m.toolCalls.map (·.id)) rest left) :
      Leads [] (m :: rest) left
  | tool {m : Message} {rest : List Message} {id : String} {due others left : List String}
      (role : m.role = .tool) (answers : m.toolCallId = some id) (opened : due.Perm (id :: others))
      (later : Leads others rest left) : Leads due (m :: rest) left

namespace Leads

theorem perm_left {due due' left : List String} {messages : List Message}
    (same : due'.Perm due) (leads : Leads due messages left) : Leads due' messages left := by
  cases leads with
  | none ends => exact .none (same.trans ends)
  | user role later =>
    rw [same.eq_nil]
    exact .user role later
  | assistant role later =>
    rw [same.eq_nil]
    exact .assistant role later
  | tool role answers opened later => exact .tool role answers (same.trans opened) later

theorem append {due mid left : List String} {messages more : List Message}
    (first : Leads due messages mid) (second : Leads mid more left) :
    Leads due (messages ++ more) left := by
  induction first with
  | none same => exact second.perm_left same
  | user role later ih => exact .user role (ih second)
  | assistant role later ih => exact .assistant role (ih second)
  | tool role answers opened later ih => exact .tool role answers opened (ih second)

theorem perm_right {due left left' : List String} {messages : List Message}
    (leads : Leads due messages left) (same : left.Perm left') : Leads due messages left' := by
  simpa only [List.append_nil] using leads.append (.none same)

theorem refl (due : List String) : Leads due [] due := .none (.refl due)

/-- A message that answers an open call closes it. -/
theorem answer {m : Message} {id : String} {due messages} {left others : List String}
    (leads : Leads due messages left) (role : m.role = .tool) (answers : m.toolCallId = some id)
    (opened : left.Perm (id :: others)) : Leads due (messages ++ [m]) others :=
  leads.append (.tool role answers opened (.refl others))

end Leads

/-- What a model takes as one exchange. -/
inductive Block : List Message → Prop
  | user {m : Message} (role : m.role = .user) : Block [m]
  | plain {m : Message} (role : m.role = .assistant) (asks : m.toolCalls = []) : Block [m]
  | answered {m : Message} {answers : List Message} (role : m.role = .assistant)
      (asks : m.toolCalls ≠ []) (tools : ∀ a ∈ answers, a.role = .tool)
      (ids : (answers.map (·.toolCallId)).Perm (m.toolCalls.map fun call => some call.id)) :
      Block (m :: answers)

/-- A transcript that a model accepts: at most one message of the system, in front, and then
blocks. -/
def Acceptable (messages : List Message) : Prop :=
  ∃ (front : List Message) (blocks : List (List Message)),
    messages = front ++ blocks.flatten ∧ (front = [] ∨ ∃ m, front = [m] ∧ m.role = .system) ∧
      ∀ block ∈ blocks, Block block

/-- Behind a message of the model come the answers to its calls. -/
theorem Block.ofAssistant {m : Message} {answers : List Message} (role : m.role = .assistant)
    (tools : ∀ a ∈ answers, a.role = .tool)
    (ids : (answers.map (·.toolCallId)).Perm (m.toolCalls.map fun call => some call.id)) :
    Block (m :: answers) := by
  by_cases asks : m.toolCalls = []
  · have silent : answers = [] := by simpa [asks] using ids.length_eq
    rw [silent]
    exact .plain role asks
  · exact .answered role asks tools ids

/-- Messages that leave nothing open answer what is due first, and go on in blocks. -/
theorem Leads.blocks {due left : List String} {messages : List Message}
    (leads : Leads due messages left) (closed : left = []) :
    ∃ answers blocks, messages = answers ++ List.flatten blocks ∧
      (∀ a ∈ answers, a.role = .tool) ∧
      (answers.map (·.toolCallId)).Perm (due.map some) ∧ ∀ block ∈ blocks, Block block := by
  induction leads with
  | none same =>
    have settled : _ = [] := (closed ▸ same).eq_nil
    exact ⟨[], [], rfl, by simp, by simp [settled], by simp⟩
  | @user m rest left role later ih =>
    obtain ⟨answers, blocks, split, tools, ids, each⟩ := ih closed
    have silent : answers = [] := by simpa using ids.length_eq
    refine ⟨[], [m] :: blocks, by simp [split, silent], by simp, by simp, ?_⟩
    rintro block (- | ⟨_, member⟩)
    · exact .user role
    · exact each block member
  | @assistant m rest left role later ih =>
    obtain ⟨answers, blocks, split, tools, ids, each⟩ := ih closed
    refine ⟨[], (m :: answers) :: blocks, by simp [split], by simp, by simp, ?_⟩
    rintro block (- | ⟨_, member⟩)
    · rw [List.map_map] at ids
      exact .ofAssistant role tools ids
    · exact each block member
  | @tool m rest id due others left role answers opened later ih =>
    obtain ⟨rest', blocks, split, tools, ids, each⟩ := ih closed
    refine ⟨m :: rest', blocks, by simp [split], ?_, ?_, each⟩
    · rintro a (- | ⟨_, member⟩)
      · exact role
      · exact tools a member
    · calc
        (m :: rest').map (·.toolCallId) = some id :: rest'.map (·.toolCallId) := by
          rw [List.map_cons, answers]
        List.Perm _ (some id :: others.map some) := ids.cons _
        List.Perm _ (due.map some) := (opened.map some).symm

/-- Behind what the system says, messages that leave nothing open are acceptable. -/
theorem Leads.acceptable {front messages : List Message} (leads : Leads [] messages [])
    (system : front = [] ∨ ∃ m, front = [m] ∧ m.role = .system) :
    Acceptable (front ++ messages) := by
  obtain ⟨answers, blocks, split, -, ids, each⟩ := leads.blocks rfl
  have silent : answers = [] := by simpa using ids.length_eq
  exact ⟨front, blocks, by rw [split, silent, List.nil_append], system, each⟩

end DialogueEngine.Transcript
