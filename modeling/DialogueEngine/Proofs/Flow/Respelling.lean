import DialogueEngine.Flow.Authored
import DialogueEngine.Proofs.Json.Respelling

/-!
Authored flows and properties of nodes as they are written and read. What is written is read as it
was. A property may go by its name in either of two spellings, and so may the kind of a node or an
edge: whichever of them are exchanged, the same is read, or nothing in both cases.
-/

namespace DialogueEngine

open Json (Placed Reader Record lookup RespeltList)
open Json.Reader (value?_bool value?_json value?_list_self value?_table value?_text value?_text?)

/-! ## Properties that are written -/

theorem Json.reads_texts (texts : List String) :
    (Reader.list Reader.text).value? (.ofTexts texts) = some texts :=
  value?_list_self fun s _ => value?_text s

theorem Json.reads_table (t : Table String) :
    (Reader.table Reader.text).value? (.ofTable t) = some t :=
  value?_table fun e _ => value?_text e.2

/-- The names of each property of a reference to a provider. -/
def ProviderRef.spellings : List (List String) :=
  [["id"], ["boundProvider", "bound_provider"], ["enabledTools", "enabled_tools"], ["env"]]

def StartSpec.spellings : List (List String) := [["promptTemplate", "prompt_template"]]

def ProcessSpec.spellings : List (List String) :=
  [["promptTemplate", "prompt_template"], ["boundModel", "bound_model"],
    ["allowedTools", "allowed_tools"], ["toolProviderRefs", "tool_provider_refs"],
    ["excludeModelPrompt", "exclude_model_prompt"],
    ["excludeStartPrompt", "exclude_start_prompt"], ["requireApproval", "require_approval"]]

def ProviderSpec.spellings : List (List String) :=
  [["boundProvider", "bound_provider"], ["enabledTools", "enabled_tools"], ["env"]]

theorem ProviderRef.reads (ref : ProviderRef) : ProviderRef.read.value? ref.toJson = some ref := by
  refine Json.Written.value? ⟨by simp, by simp⟩ (by simp) fun r holds => ?_
  have id := holds.gives_required "id" (value?_text ref.id) (by simp [lookup])
  have provider := holds.gives_required "boundProvider" (value?_text ref.provider)
    (by simp [lookup])
  have enabledTools := holds.gives_defaulted "enabledTools" [] (Json.reads_texts ref.enabledTools)
    (by simp [lookup])
  have env := holds.gives_defaulted "env" ∅ (Json.reads_table ref.env) (by simp [lookup])
  exact (((id.map ProviderRef.mk).seq provider).seq enabledTools).seq env

theorem StartSpec.reads (spec : StartSpec) : StartSpec.read.value? spec.toJson = some spec := by
  refine Json.Written.value? ⟨by simp, by simp⟩ (by simp) fun r holds => ?_
  exact (holds.gives_defaulted "promptTemplate" "" (value?_text spec.promptTemplate)
    (by simp [lookup])).map StartSpec.mk

theorem ProcessSpec.reads (spec : ProcessSpec) :
    ProcessSpec.read.value? spec.toJson = some spec := by
  refine Json.Written.value? ⟨by simp, by simp⟩ (by simp) fun r holds => ?_
  have promptTemplate := holds.gives_defaulted "promptTemplate" ""
    (value?_text spec.promptTemplate) (by simp [lookup])
  have model := holds.gives_defaulted "boundModel" none (value?_text? spec.model)
    (by simp [lookup])
  have allowedTools := holds.gives_defaulted "allowedTools" []
    (Json.reads_texts spec.allowedTools) (by simp [lookup])
  have providerRefs := holds.gives_defaulted "toolProviderRefs" []
    (value?_list_self fun ref (_ : ref ∈ spec.providerRefs) => ref.reads) (by simp [lookup])
  have excludeModel := holds.gives_defaulted "excludeModelPrompt" false
    (value?_bool spec.excludeModelPrompt) (by simp [lookup])
  have excludeStart := holds.gives_defaulted "excludeStartPrompt" false
    (value?_bool spec.excludeStartPrompt) (by simp [lookup])
  have requireApproval := holds.gives_defaulted "requireApproval" false
    (value?_bool spec.requireApproval) (by simp [lookup])
  exact ((((((promptTemplate.map ProcessSpec.mk).seq model).seq allowedTools).seq
    providerRefs).seq excludeModel).seq excludeStart).seq requireApproval

theorem ProviderSpec.reads (spec : ProviderSpec) :
    ProviderSpec.read.value? spec.toJson = some spec := by
  refine Json.Written.value? ⟨by simp, by simp⟩ (by simp) fun r holds => ?_
  have provider := holds.gives_defaulted "boundProvider" none (value?_text? spec.provider)
    (by simp [lookup])
  have enabledTools := holds.gives_defaulted "enabledTools" []
    (Json.reads_texts spec.enabledTools) (by simp [lookup])
  have env := holds.gives_defaulted "env" ∅ (Json.reads_table spec.env) (by simp [lookup])
  exact ((provider.map ProviderSpec.mk).seq enabledTools).seq env

theorem NodeKind.ofText?_text (kind : NodeKind) : NodeKind.ofText? kind.text = some kind := by
  cases kind <;> decide

namespace NodeSpec

/-- What properties are typed as for a kind of nodes. -/
def value? (data : Json) : NodeKind → Option NodeSpec
  | .start => (StartSpec.read.value? data).map NodeSpec.start
  | .process => (ProcessSpec.read.value? data).map NodeSpec.process
  | .toolProvider => (ProviderSpec.read.value? data).map NodeSpec.toolProvider
  | .finish => some .finish

theorem toOption_parse {kind : String} {k : NodeKind} (known : NodeKind.ofText? kind = some k)
    (node : String) (data : Json) : (parse node kind data).toOption =
      value? (if data = .null then .object [] else data) k := by
  rw [parse, known]
  cases k with
  | finish => rfl
  | _ =>
    simp only [value?, Reader.value?]
    cases Reader.ofJson _ _ <;> rfl

/-- The properties of a node are typed as they were, under the name of its kind. -/
theorem parse_toJson (node : String) (spec : NodeSpec) :
    parse node spec.kind.text spec.toJson = .ok spec := by
  have typed : (parse node spec.kind.text spec.toJson).toOption = some spec := by
    rw [toOption_parse (NodeKind.ofText?_text spec.kind)]
    cases spec with
    | start s => exact congrArg (Option.map NodeSpec.start) s.reads
    | process s => exact congrArg (Option.map NodeSpec.process) s.reads
    | toolProvider s => exact congrArg (Option.map NodeSpec.toolProvider) s.reads
    | finish => rfl
  cases parsed : parse node spec.kind.text spec.toJson with
  | ok spec' =>
    rw [parsed] at typed
    exact congrArg Except.ok (Option.some.inj typed)
  | error f =>
    rw [parsed] at typed
    cases typed

end NodeSpec

/-! ## Flows that are written -/

def AuthoredNode.spellings : List (List String) := [["id"], ["label"], ["type", "kind"], ["data"]]

def AuthoredEdge.spellings : List (List String) :=
  [["id"], ["source"], ["target"], ["type", "kind"], ["action"]]

def AuthoredFlow.spellings : List (List String) := [["id"], ["name"], ["nodes"], ["edges"]]

theorem AuthoredNode.reads {n : AuthoredNode} (sorted : n.data.Sorted) :
    AuthoredNode.read.value? n.toJson = some n := by
  refine Json.Written.value? ⟨by simp, by simp⟩ (by simp) fun r holds => ?_
  have id := holds.gives_required "id" (value?_text n.id) (by simp [lookup])
  have label := holds.gives_defaulted "label" "" (value?_text n.label) (by simp [lookup])
  have kind := holds.gives_required "type" (value?_text n.kind) (by simp [lookup])
  have data := holds.gives_defaulted "data" .null (value?_json sorted) (by simp [lookup])
  exact (((id.map AuthoredNode.mk).seq label).seq kind).seq data

theorem EdgeKind.reads (kind : EdgeKind) :
    EdgeKind.read.value? (.string kind.text) = some kind := by
  cases kind <;> rfl

theorem AuthoredEdge.reads (e : AuthoredEdge) : AuthoredEdge.read.value? e.toJson = some e := by
  refine Json.Written.value? ⟨by simp, by simp⟩ (by simp) fun r holds => ?_
  have id := holds.gives_required "id" (value?_text e.id) (by simp [lookup])
  have source := holds.gives_required "source" (value?_text e.source) (by simp [lookup])
  have target := holds.gives_required "target" (value?_text e.target) (by simp [lookup])
  have kind := holds.gives_defaulted "type" .routing e.kind.reads (by simp [lookup])
  have written : (e.action.map Json.string).getD .null = .ofText? e.action := by
    cases e.action <;> rfl
  have action := holds.gives_defaulted "action" none (value?_text? e.action)
    (by simp [lookup, written])
  exact ((((id.map AuthoredEdge.mk).seq source).seq target).seq kind).seq action

theorem AuthoredFlow.reads {f : AuthoredFlow} (sorted : ∀ n ∈ f.nodes, n.data.Sorted) :
    AuthoredFlow.read.value? f.toJson = some f := by
  refine Json.Written.value? ⟨by simp, by simp⟩ (by simp) fun r holds => ?_
  have id := holds.gives_required "id" (value?_text f.id) (by simp [lookup])
  have name := holds.gives_defaulted "name" "" (value?_text f.name) (by simp [lookup])
  have nodes := holds.gives_defaulted "nodes" []
    (value?_list_self fun n member => AuthoredNode.reads (sorted n member)) (by simp [lookup])
  have edges := holds.gives_defaulted "edges" []
    (value?_list_self fun e (_ : e ∈ f.edges) => e.reads) (by simp [lookup])
  exact (((id.map AuthoredFlow.mk).seq name).seq nodes).seq edges

/-! ## Other spellings -/

def ProviderRef.Respelt : Json → Json → Prop := Json.Respelt spellings (Json.Nested [])

theorem ProviderRef.Respelt.value? (v v' : Json) (respelt : Respelt v v') :
    ProviderRef.read.value? v = ProviderRef.read.value? v' := by
  refine Record.value?_respelt (by simp) (by simp) (Json.Nested.refl _)
    (fun r r' alike => ?_) respelt
  have id := alike.required "id" [] Reader.text (by simp) (Json.Nested.plain (by simp))
  have provider := alike.required "boundProvider" ["bound_provider"] Reader.text
    (by simp) (Json.Nested.plain (by simp))
  have enabledTools := alike.defaulted "enabledTools" ["enabled_tools"] (Reader.list Reader.text)
    (by simp) (Json.Nested.plain (by simp)) []
  have env := alike.defaulted "env" [] (Reader.table Reader.text) (by simp)
    (Json.Nested.plain (by simp)) ∅
  simp only [Placed.value?_map, Placed.value?_seq, id, provider, enabledTools, env]

/-- The properties of a start respelt. -/
def StartSpec.Respelt : Json → Json → Prop := Json.Respelt spellings (Json.Nested [])

theorem StartSpec.Respelt.value? {v v' : Json} (respelt : Respelt v v') :
    StartSpec.read.value? v = StartSpec.read.value? v' := by
  refine Record.value?_respelt (by simp) (by simp) (Json.Nested.refl _)
    (fun r r' alike => ?_) respelt
  have promptTemplate := alike.defaulted "promptTemplate" ["prompt_template"] Reader.text
    (by simp) (Json.Nested.plain (by simp)) ""
  simp only [Placed.value?_map, promptTemplate]

/-- The properties of a process respelt, and with them the references to providers. -/
def ProcessSpec.Respelt : Json → Json → Prop :=
  Json.Respelt spellings (Json.Nested [("toolProviderRefs", RespeltList ProviderRef.Respelt)])

theorem ProcessSpec.Respelt.value? {v v' : Json} (respelt : Respelt v v') :
    ProcessSpec.read.value? v = ProcessSpec.read.value? v' := by
  refine Record.value?_respelt (by simp) (by simp) (Json.Nested.refl _)
    (fun r r' alike => ?_) respelt
  have promptTemplate := alike.defaulted "promptTemplate" ["prompt_template"] Reader.text
    (by simp) (Json.Nested.plain (by simp)) ""
  have model := alike.defaulted "boundModel" ["bound_model"] (Reader.nullable Reader.text)
    (by simp) (Json.Nested.plain (by simp)) none
  have allowedTools := alike.defaulted "allowedTools" ["allowed_tools"] (Reader.list Reader.text)
    (by simp) (Json.Nested.plain (by simp)) []
  have refs (v v' : Json) (nested : Json.Nested
      [("toolProviderRefs", RespeltList ProviderRef.Respelt)]
      ["toolProviderRefs", "tool_provider_refs"] v v') :
      (Reader.list ProviderRef.read).value? v = (Reader.list ProviderRef.read).value? v' := by
    obtain rfl | ⟨e, member, -, list⟩ := nested
    · rfl
    · obtain rfl := List.mem_singleton.1 member
      exact list.value? ProviderRef.Respelt.value?
  have providerRefs := alike.defaulted "toolProviderRefs" ["tool_provider_refs"] _
    (by simp) refs []
  have excludeModel := alike.defaulted "excludeModelPrompt" ["exclude_model_prompt"] Reader.bool
    (by simp) (Json.Nested.plain (by simp)) false
  have excludeStart := alike.defaulted "excludeStartPrompt" ["exclude_start_prompt"] Reader.bool
    (by simp) (Json.Nested.plain (by simp)) false
  have requireApproval := alike.defaulted "requireApproval" ["require_approval"] Reader.bool
    (by simp) (Json.Nested.plain (by simp)) false
  simp only [Placed.value?_map, Placed.value?_seq, Record.optional, promptTemplate, model,
    allowedTools, providerRefs, excludeModel, excludeStart, requireApproval]

/-- The properties of a provider's node respelt. -/
def ProviderSpec.Respelt : Json → Json → Prop := Json.Respelt spellings (Json.Nested [])

theorem ProviderSpec.Respelt.value? {v v' : Json} (respelt : Respelt v v') :
    ProviderSpec.read.value? v = ProviderSpec.read.value? v' := by
  refine Record.value?_respelt (by simp) (by simp) (Json.Nested.refl _)
    (fun r r' alike => ?_) respelt
  have provider := alike.defaulted "boundProvider" ["bound_provider"]
    (Reader.nullable Reader.text) (by simp) (Json.Nested.plain (by simp)) none
  have enabledTools := alike.defaulted "enabledTools" ["enabled_tools"] (Reader.list Reader.text)
    (by simp) (Json.Nested.plain (by simp)) []
  have env := alike.defaulted "env" [] (Reader.table Reader.text) (by simp)
    (Json.Nested.plain (by simp)) ∅
  simp only [Placed.value?_map, Placed.value?_seq, Record.optional, provider, enabledTools, env]

/-- Properties respelt as the kind of their node allows. -/
def NodeKind.Respelt : NodeKind → Json → Json → Prop
  | .start => StartSpec.Respelt
  | .process => ProcessSpec.Respelt
  | .toolProvider => ProviderSpec.Respelt
  | .finish => Eq

/-- What is respelt is null only where it stays the same. -/
theorem Json.Respelt.unless_null {fields : List (List String)}
    {within : List String → Json → Json → Prop} {v v' : Json}
    (respelt : Respelt fields within v v') :
    Respelt fields within (if v = .null then .object [] else v)
      (if v' = .null then .object [] else v') := by
  cases respelt with
  | same => exact .same _
  | object clear respelt order => simpa using Respelt.object clear respelt order
  | array respelt => simpa using Respelt.array respelt

/-- Properties respelt are typed the same, with none where there are none at all. -/
theorem NodeKind.Respelt.value? {kind : NodeKind} {data data' : Json}
    (respelt : kind.Respelt data data') :
    NodeSpec.value? (if data = .null then .object [] else data) kind =
      NodeSpec.value? (if data' = .null then .object [] else data') kind := by
  cases kind with
  | start =>
    exact congrArg (Option.map NodeSpec.start) (StartSpec.Respelt.value? respelt.unless_null)
  | process =>
    exact congrArg (Option.map NodeSpec.process) (ProcessSpec.Respelt.value? respelt.unless_null)
  | toolProvider =>
    exact congrArg (Option.map NodeSpec.toolProvider)
      (ProviderSpec.Respelt.value? respelt.unless_null)
  | finish => rfl

/-- Whatever is respelt, the same properties are typed. -/
theorem NodeSpec.parse_respelt (node : String) {kind : String} {data data' : Json}
    (respelt : ∀ k, NodeKind.ofText? kind = some k → k.Respelt data data') :
    (parse node kind data).toOption = (parse node kind data').toOption := by
  cases known : NodeKind.ofText? kind with
  | none => simp [parse, known, Except.toOption]
  | some k =>
    have respelt := respelt k known
    rw [toOption_parse known, toOption_parse known]
    rw [respelt.value?]

/-! ## Flows with other spellings -/

/-- The kind of an edge under either of its names, be it a text or an object that holds nothing. -/
def EdgeKind.Respelt (v v' : Json) : Prop :=
  ∃ name ∈ ["tool_binding", "toolBinding"], ∃ name' ∈ ["tool_binding", "toolBinding"],
    (v = .string name ∧ v' = .string name') ∨
      ∃ inside, v = .object [(name, inside)] ∧ v' = .object [(name', inside)]

theorem EdgeKind.Respelt.value? {v v' : Json} (respelt : Respelt v v') :
    EdgeKind.read.value? v = EdgeKind.read.value? v' := by
  obtain ⟨name, member, name', member', ⟨rfl, rfl⟩ | ⟨inside, rfl, rfl⟩⟩ := respelt
  all_goals
    simp only [List.mem_cons, List.not_mem_nil, or_false] at member member'
    obtain ⟨rfl | rfl, rfl | rfl⟩ := And.intro member member' <;> rfl

def AuthoredNode.Respelt : Json → Json → Prop := Json.Respelt spellings (Json.Nested [])

def AuthoredEdge.Respelt : Json → Json → Prop :=
  Json.Respelt spellings (Json.Nested [("type", EdgeKind.Respelt)])

def AuthoredFlow.Respelt : Json → Json → Prop :=
  Json.Respelt spellings (Json.Nested [("nodes", RespeltList AuthoredNode.Respelt),
    ("edges", RespeltList AuthoredEdge.Respelt)])

theorem AuthoredNode.Respelt.value? (v v' : Json) (respelt : Respelt v v') :
    AuthoredNode.read.value? v = AuthoredNode.read.value? v' := by
  refine Record.value?_respelt (by simp) (by simp) (Json.Nested.refl _)
    (fun r r' alike => ?_) respelt
  have id := alike.required "id" [] Reader.text (by simp) (Json.Nested.plain (by simp))
  have label := alike.defaulted "label" [] Reader.text (by simp) (Json.Nested.plain (by simp)) ""
  have kind := alike.required "type" ["kind"] Reader.text (by simp)
    (Json.Nested.plain (by simp))
  have data := alike.defaulted "data" [] Reader.json (by simp) (Json.Nested.plain (by simp)) .null
  simp only [Placed.value?_map, Placed.value?_seq, id, label, kind, data]

theorem AuthoredEdge.Respelt.value? (v v' : Json) (respelt : Respelt v v') :
    AuthoredEdge.read.value? v = AuthoredEdge.read.value? v' := by
  refine Record.value?_respelt (by simp) (by simp) (Json.Nested.refl _)
    (fun r r' alike => ?_) respelt
  have id := alike.required "id" [] Reader.text (by simp) (Json.Nested.plain (by simp))
  have source := alike.required "source" [] Reader.text (by simp) (Json.Nested.plain (by simp))
  have target := alike.required "target" [] Reader.text (by simp) (Json.Nested.plain (by simp))
  have kinds (v v' : Json) (nested : Json.Nested [("type", EdgeKind.Respelt)]
      ["type", "kind"] v v') : EdgeKind.read.value? v = EdgeKind.read.value? v' := by
    obtain rfl | ⟨e, member, -, respelt⟩ := nested
    · rfl
    · obtain rfl := List.mem_singleton.1 member
      exact respelt.value?
  have kind := alike.defaulted "type" ["kind"] EdgeKind.read (by simp) kinds .routing
  have action := alike.defaulted "action" [] (Reader.nullable Reader.text) (by simp)
    (Json.Nested.plain (by simp)) none
  simp only [Placed.value?_map, Placed.value?_seq, Record.optional, id, source, target, kind,
    action]

theorem AuthoredFlow.Respelt.value? {v v' : Json} (respelt : Respelt v v') :
    AuthoredFlow.read.value? v = AuthoredFlow.read.value? v' := by
  refine Record.value?_respelt (by simp) (by simp) (Json.Nested.refl _)
    (fun r r' alike => ?_) respelt
  have id := alike.required "id" [] Reader.text (by simp) (Json.Nested.plain (by simp))
  have name := alike.defaulted "name" [] Reader.text (by simp) (Json.Nested.plain (by simp)) ""
  have nodes := alike.defaulted "nodes" [] (Reader.list AuthoredNode.read) (by simp) (by
    rintro v v' (rfl | ⟨e, member, inside, respelt⟩)
    · rfl
    obtain rfl | rfl := by simpa using member
    · exact respelt.value? AuthoredNode.Respelt.value?
    · simp at inside) []
  have edges := alike.defaulted "edges" [] (Reader.list AuthoredEdge.read) (by simp) (by
    rintro v v' (rfl | ⟨e, member, inside, respelt⟩)
    · rfl
    obtain rfl | rfl := by simpa using member
    · simp at inside
    · exact respelt.value? AuthoredEdge.Respelt.value?) []
  simp only [Placed.value?_map, Placed.value?_seq, id, name, nodes, edges]

/-- Flows and properties are read as they were written, and read the same however they are spelt. -/
theorem flows_read_however_spelt :
    (∀ f : AuthoredFlow, (∀ n ∈ f.nodes, n.data.Sorted) →
      AuthoredFlow.read.ofJson f.toJson = .ok f) ∧
    (∀ (node : String) (spec : NodeSpec),
      NodeSpec.parse node spec.kind.text spec.toJson = .ok spec) ∧
    (∀ (node kind : String) (data data' : Json),
      (∀ k, NodeKind.ofText? kind = some k → k.Respelt data data') →
      (NodeSpec.parse node kind data).toOption = (NodeSpec.parse node kind data').toOption) ∧
    ∀ v v' : Json, AuthoredFlow.Respelt v v' →
      (AuthoredFlow.read.ofJson v).toOption = (AuthoredFlow.read.ofJson v').toOption :=
  ⟨fun _ sorted => Reader.ofJson_of_value? (AuthoredFlow.reads sorted), NodeSpec.parse_toJson,
    fun node _ _ _ respelt => NodeSpec.parse_respelt node respelt,
    fun _ _ respelt => respelt.value?⟩

/-- The properties of a process that drafts with a provider of its own. -/
def draftSpec : ProcessSpec where
  promptTemplate := "Write."
  model := some "m"
  allowedTools := []
  providerRefs := [⟨"t", "search", [], ∅⟩]
  excludeModelPrompt := false
  excludeStartPrompt := false
  requireApproval := true

/-- The same properties under the other names of some of them, in the nested reference too. -/
def draftBag : Json :=
  .object [("allowedTools", .array []), ("bound_model", .string "m"),
    ("excludeModelPrompt", .bool false), ("exclude_start_prompt", .bool false),
    ("promptTemplate", .string "Write."), ("require_approval", .bool true),
    ("tool_provider_refs", .array [.object [("bound_provider", .string "search"),
      ("enabledTools", .array []), ("env", .object []), ("id", .string "t")]])]

/-- A flow in which a process is bound to a provider. -/
def draftFlow : AuthoredFlow where
  id := "draft"
  name := "Draft"
  nodes := [⟨"p", "P", "process", draftBag⟩, ⟨"t", "T", "tool_provider", .null⟩]
  edges := [⟨"b", "t", "p", .toolBinding, none⟩]

/-- The same flow under the other names of the kinds of a node and of its edge. -/
def draftDocument : Json :=
  .object [("edges", .array [.object [("action", .null), ("id", .string "b"),
      ("kind", .string "toolBinding"), ("source", .string "t"), ("target", .string "p")]]),
    ("id", .string "draft"), ("name", .string "Draft"),
    ("nodes", .array [.object [("data", draftBag), ("id", .string "p"), ("kind", .string "process"),
        ("label", .string "P")],
      .object [("data", .null), ("id", .string "t"), ("label", .string "T"),
        ("type", .string "tool_provider")]])]

theorem draftBag_respelt : ProcessSpec.Respelt draftBag draftSpec.toJson := by
  have ref : ProviderRef.Respelt
      (.object [("bound_provider", .string "search"), ("enabledTools", .array []),
        ("env", .object []), ("id", .string "t")])
      (ProviderRef.toJson ⟨"t", "search", [], ∅⟩) := by
    refine Json.Respelt.object (by decide) (.cons (b := ("boundProvider", .string "search"))
      (.inr ?_) (.cons (.inl rfl) (.cons (.inl rfl) (.cons (.inl rfl) .nil)))) (.refl _)
    exact ⟨["boundProvider", "bound_provider"], by decide, by decide, by decide, .inl rfl⟩
  refine Json.Respelt.object (by decide) (.cons (.inl rfl) (.cons (.inr ?_) (.cons (.inl rfl)
    (.cons (.inr ?_) (.cons (.inl rfl) (.cons (.inr ?_) (.cons (.inr ?_) .nil))))))) (.refl _)
  · exact ⟨["boundModel", "bound_model"], by decide, by decide, by decide, .inl rfl⟩
  · exact ⟨["excludeStartPrompt", "exclude_start_prompt"], by decide, by decide, by decide,
      .inl rfl⟩
  · exact ⟨["requireApproval", "require_approval"], by decide, by decide, by decide, .inl rfl⟩
  · exact ⟨["toolProviderRefs", "tool_provider_refs"], by decide, by decide, by decide,
      .inr ⟨_, List.mem_singleton_self _, by decide, .inr ⟨_, _, rfl, rfl, .cons ref .nil⟩⟩⟩

theorem draftDocument_respelt : AuthoredFlow.Respelt draftDocument draftFlow.toJson := by
  have nodes : List.Forall₂ AuthoredNode.Respelt
      [.object [("data", draftBag), ("id", .string "p"), ("kind", .string "process"),
          ("label", .string "P")],
        .object [("data", .null), ("id", .string "t"), ("label", .string "T"),
          ("type", .string "tool_provider")]]
      (draftFlow.nodes.map AuthoredNode.toJson) := by
    refine .cons (Json.Respelt.object (by decide) (.cons (.inl rfl) (.cons (.inl rfl)
      (.cons (b := ("type", .string "process")) (.inr ?_) (.cons (.inl rfl) .nil)))) ?_)
      (.cons (.same _) .nil)
    · exact ⟨["type", "kind"], by decide, by decide, by decide, .inl rfl⟩
    · exact .cons _ (.cons _ (.swap _ _ _))
  have edges : List.Forall₂ AuthoredEdge.Respelt
      [.object [("action", .null), ("id", .string "b"), ("kind", .string "toolBinding"),
        ("source", .string "t"), ("target", .string "p")]]
      (draftFlow.edges.map AuthoredEdge.toJson) := by
    refine .cons (Json.Respelt.object (by decide) (.cons (.inl rfl) (.cons (.inl rfl)
      (.cons (b := ("type", .string "tool_binding")) (.inr ?_) (.cons (.inl rfl)
        (.cons (.inl rfl) .nil))))) ?_) .nil
    · exact ⟨["type", "kind"], by decide, by decide, by decide, .inr ⟨_, List.mem_singleton_self _,
        by decide, "toolBinding", by decide, "tool_binding", by decide, .inl ⟨rfl, rfl⟩⟩⟩
    · exact .cons _ (.cons _ ((List.Perm.swap _ _ _).trans (.cons _ (.swap _ _ _))))
  refine Json.Respelt.object (by decide) (.cons (.inr ?_) (.cons (.inl rfl) (.cons (.inl rfl)
    (.cons (.inr ?_) .nil)))) (.refl _)
  · exact ⟨["edges"], by decide, by decide, by decide,
      .inr ⟨("edges", RespeltList AuthoredEdge.Respelt), by simp, by decide,
        .inr ⟨_, _, rfl, rfl, edges⟩⟩⟩
  · exact ⟨["nodes"], by decide, by decide, by decide,
      .inr ⟨("nodes", RespeltList AuthoredNode.Respelt), by simp, by decide,
        .inr ⟨_, _, rfl, rfl, nodes⟩⟩⟩

theorem draftFlow_sorted : ∀ n ∈ draftFlow.nodes, n.data.Sorted := by
  simp only [draftFlow, List.forall_mem_cons, draftBag, Json.Sorted, Json.SortedItems,
    Json.SortedMembers, List.not_mem_nil, false_implies, implies_true]
  decide

/-- The drafting flow and its process are read from either of their spellings. -/
theorem draftFlow_read : draftDocument ≠ draftFlow.toJson ∧ draftBag ≠ draftSpec.toJson ∧
    AuthoredFlow.read.ofJson draftFlow.toJson = .ok draftFlow ∧
    (AuthoredFlow.read.ofJson draftDocument).toOption = some draftFlow ∧
    (NodeSpec.parse "p" "process" draftBag).toOption = some (.process draftSpec) := by
  obtain ⟨written, typed, bags, documents⟩ := flows_read_however_spelt
  have read := written draftFlow draftFlow_sorted
  refine ⟨by decide, by decide, read, ?_, ?_⟩
  · rw [documents _ _ draftDocument_respelt, read]
    rfl
  · have respelt : ∀ k, NodeKind.ofText? "process" = some k →
        k.Respelt draftBag draftSpec.toJson := by
      intro k known
      obtain rfl : NodeKind.process = k := Option.some.inj known
      exact draftBag_respelt
    rw [bags "p" "process" _ _ respelt]
    exact congrArg Except.toOption (typed "p" (.process draftSpec))

end DialogueEngine
