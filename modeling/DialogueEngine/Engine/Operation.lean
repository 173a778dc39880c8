import DialogueEngine.Engine.Decision
import DialogueEngine.Engine.Cursor

/-!
The operations on conversations that are named by their ids, as data. Whatever happens to stored
conversations, happens by carrying out a sequence of these; one may be carried out while another
waits for an answer.
-/

namespace DialogueEngine

/-- An operation on the conversation with an id. -/
inductive Operation where
  /-- Start it on a flow; without an id it gets a new one. -/
  | start (id : Option String) (flow : String) (message : Option String)
  | post (id text : String)
  | step (id : String)
  | run (id : String) (most : Nat)
  | cancel (id : String)
  | setRecording (id : String) (enabled : Bool)
  | resolve (id call : String) (decision : Decision)
  | enableTrace (id : String)
  | resumeTrace (id : String)
  | currentRecord (id : String)
  | goBack (id : String)
  | goForward (id : String)
  deriving DecidableEq

namespace Operation

/-- What an operation gives back. -/
inductive Outcome where
  | done
  | conversation (c : Conversation)
  | step (o : StepResult)
  | record (r : Option StepRecord)

/-- The id of the conversation, unless it is to get a new one. -/
def id? : Operation → Option String
  | .start id _ _ => id
  | .post id _ | .step id | .run id _ | .cancel id | .setRecording id _ | .resolve id _ _
  | .enableTrace id | .resumeTrace id | .currentRecord id | .goBack id | .goForward id =>
    some id

def perform : Operation → Engine (Except Failure Outcome)
  | .start id flow message => do return (← Engine.start id flow message).map .conversation
  | .post id text => do return (← Engine.post id text).map .conversation
  | .step id => do return (← Engine.step id).map .step
  | .run id most => do return (← Engine.run id most).map .step
  | .cancel id => do return (← Engine.cancel id).map fun _ => .done
  | .setRecording id enabled => do
    return (← Engine.setRecording id enabled).map .conversation
  | .resolve id call decision => do return (← Engine.resolve id call decision).map .conversation
  | .enableTrace id => do return (← Engine.enableTrace id).map .conversation
  | .resumeTrace id => do return (← Engine.resumeTrace id).map .conversation
  | .currentRecord id => do return (← Engine.currentRecord id).map .record
  | .goBack id => do return (← Engine.goBack id).map .record
  | .goForward id => do return (← Engine.goForward id).map .record

end Operation

end DialogueEngine
