import DialogueEngine.Engine.Decision

/-!
Commands of the command line. Arguments are taken from left to right: options of the program stand
before its subcommand, options of a subcommand behind it, and after `--` nothing is an option. What
does not fit is a misuse, at the first argument that does not.
-/

namespace DialogueEngine

/-- What the program is told to do. -/
inductive Command where
  | validate (flow : String)
  /-- Print the tools that the providers of a flow offer. -/
  | tools (flow : String)
  | list
  | display (conversation : String)
  | delete (conversation : String)
  /-- Decide about the pending call whose id begins with a text. -/
  | resolve (conversation front : String) (decision : Decision)
  | cancel (conversation : String)
  deriving DecidableEq

/-- A command with the path of the settings it is to be carried out under. -/
structure Order where
  settings : String
  command : Command
  deriving DecidableEq

/-- What arguments ask for. -/
inductive Usage where
  | order (o : Order)
  | help
  | version
  | misuse
  deriving DecidableEq

namespace Command

/-- Whether an argument looks like an option; a lone dash does not. -/
def isOption (argument : String) : Bool :=
  Text.beginsWith "-" argument && argument ≠ "-"

def asksHelp (argument : String) : Bool :=
  argument = "--help" || (Text.beginsWith "-h" argument)

/-- The value in an argument of the form `name=value`. -/
def attached? (name argument : String) : Option String :=
  (Text.dropFront? (name ++ "=").toList argument.toList).map String.ofList

/-- What stands behind a subcommand. -/
structure Tail where
  /-- The arguments that are no options, the last one first. -/
  reversed : List String
  reason : Option String

/-- Reads what stands behind a subcommand of so many arguments; `reasoned` tells whether a reason
may be given, and `plain` that nothing is an option any more. -/
def tail (wanted : Nat) (reasoned plain : Bool) (t : Tail) : List String → Except Usage Tail
  | [] => if t.reversed.length = wanted then .ok t else .error .misuse
  | argument :: rest =>
    let take : Except Usage Tail :=
      if t.reversed.length < wanted then
        tail wanted reasoned plain { t with reversed := argument :: t.reversed } rest
      else .error .misuse
    if plain then take
    else if argument = "--" then tail wanted reasoned true t rest
    else if asksHelp argument then .error .help
    else if reasoned && argument = "--reason" then
      match rest with
      | value :: rest =>
        if isOption value || t.reason.isSome then .error .misuse
        else tail wanted reasoned plain { t with reason := some value } rest
      | [] => .error .misuse
    else if isOption argument then
      match (if reasoned then attached? "--reason" argument else none) with
      | some value =>
        if t.reason.isSome then .error .misuse
        else tail wanted reasoned plain { t with reason := some value } rest
      | none => .error .misuse
    else take

/-- The command of so many arguments, none of which is an option. -/
def simple (wanted : Nat) (make : List String → Option Command) (arguments : List String) :
    Except Usage Command := do
  let t ← tail wanted false false ⟨[], none⟩ arguments
  match make t.reversed.reverse with
  | some command => .ok command
  | none => .error .misuse

/-- The command about a flow file, whose path is not empty. -/
def ofFlow (make : String → Command) : List String → Except Usage Command :=
  simple 1 fun
    | [flow] => if flow = "" then none else some (make flow)
    | _ => none

def ofConversation (make : String → Command) : List String → Except Usage Command :=
  simple 1 fun
    | [conversation] => some (make conversation)
    | _ => none

/-- Whether the arguments behind `help` name a subcommand. -/
def namesSubcommand : List String → Bool
  | [] => true
  | ["conversations"] => true
  | ["conversations", name] => ["list", "show", "delete", "help"].contains name
  | [name] => ["validate", "tools", "approve", "reject", "cancel", "help"].contains name
  | _ => false

def ofConversations : List String → Except Usage Command
  | "list" :: rest => simple 0 (fun _ => some .list) rest
  | "show" :: rest => ofConversation .display rest
  | "delete" :: rest => ofConversation .delete rest
  | "help" :: names =>
    .error (if namesSubcommand ("conversations" :: names) then .help else .misuse)
  | argument :: _ => .error (if asksHelp argument then .help else .misuse)
  | [] => .error .misuse

/-- The subcommand that begins with a name, if it is one. -/
def ofName? (name : String) (rest : List String) : Option (Except Usage Command) :=
  match name with
  | "validate" => some (ofFlow .validate rest)
  | "tools" => some (ofFlow .tools rest)
  | "conversations" => some (ofConversations rest)
  | "approve" => some (simple 2 (fun
    | [conversation, front] => some (.resolve conversation front .approve)
    | _ => none) rest)
  | "reject" => some (do
    let t ← tail 2 true false ⟨[], none⟩ rest
    match t.reversed with
    | [front, conversation] => .ok (.resolve conversation front (.reject t.reason))
    | _ => .error .misuse)
  | "cancel" => some (ofConversation .cancel rest)
  | "help" => some (.error (if namesSubcommand rest then .help else .misuse))
  | _ => none

/-- What the letters of short options ask for. -/
inductive Letters where
  /-- To use settings; the path may be attached. -/
  | settings (attached : Option (List Char))
  | usage (u : Usage)

def letters : List Char → Letters
  | ['c'] => .settings none
  | 'c' :: '=' :: path => .settings (some path)
  | 'c' :: path => .settings (some path)
  | 'h' :: _ => .usage .help
  | 'V' :: _ => .usage .version
  | _ => .usage .misuse

/-- Reads the options of the program and its subcommand; `settings` is the path given so far, and
`standard` the one where none is given. -/
def program (standard : String) (settings : Option String) : List String → Usage
  | [] => .misuse
  | argument :: rest =>
    match ofName? argument rest with
    | some (.ok command) => .order ⟨settings.getD standard, command⟩
    | some (.error usage) => usage
    | none =>
      let given (path : String) : Usage :=
        if path = "" || settings.isSome then .misuse else program standard (some path) rest
      let next : Usage := match rest with
        | path :: later =>
          if isOption path || path = "" || settings.isSome then .misuse
          else program standard (some path) later
        | [] => .misuse
      match argument.toList with
      | '-' :: '-' :: _ =>
        if argument = "--config" then next
        else if argument = "--help" then .help
        else if argument = "--version" then .version
        else
          match attached? "--config" argument with
          | some path => given path
          | none => .misuse
      | '-' :: short =>
        match letters short with
        | .usage u => u
        | .settings none => next
        | .settings (some path) => given (String.ofList path)
      | _ => .misuse

end Command

/-- What arguments ask for, where `standard` is the path of the settings if they give none. -/
def Usage.ofArguments (standard : String) (arguments : List String) : Usage :=
  Command.program standard none arguments

end DialogueEngine
