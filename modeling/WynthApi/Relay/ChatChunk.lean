import Mathlib.Data.Int.Notation

/-!
# The chunks of a chat completion stream

What the stream converters read of a `ChatCompletionsStreamResponse`, and what they fill in when they
write one.  The usage record is passed on as it is; its type is left open.
-/

namespace WynthApi.Relay

structure FunctionResponse where
  name : String := ""
  arguments : String := ""
  deriving DecidableEq, Repr

/-- A fragment of a tool call; fragments with one index make up one call. -/
structure ToolCallResponse where
  index : Option ℤ := none
  id : String := ""
  function : FunctionResponse := {}
  deriving DecidableEq, Repr

/-- `dto.ChatCompletionsStreamResponseChoiceDelta`: what a chunk adds to the answer. -/
structure ChoiceDelta where
  content : Option String := none
  reasoningContent : Option String := none
  reasoning : Option String := none
  role : String := ""
  toolCalls : List ToolCallResponse := []
  deriving DecidableEq, Repr

def ChoiceDelta.getContentString (delta : ChoiceDelta) : String := delta.content.getD ""

/-- `reasoning_content` is read before `reasoning`, also if it is empty. -/
def ChoiceDelta.getReasoningContent (delta : ChoiceDelta) : String :=
  match delta.reasoningContent, delta.reasoning with
  | some reasoning, _ => reasoning
  | none, some reasoning => reasoning
  | none, none => ""

structure Choice where
  delta : ChoiceDelta := {}
  finishReason : Option String := none
  deriving DecidableEq, Repr

structure ChatCompletionsStreamResponse (Usage : Type) where
  id : String := ""
  model : String := ""
  created : ℤ := 0
  choices : List Choice := []
  usage : Option Usage := none
  deriving DecidableEq, Repr

variable {Usage : Type} (response : ChatCompletionsStreamResponse Usage)

def ChatCompletionsStreamResponse.toolCalls : List ToolCallResponse :=
  response.choices.flatMap fun choice => choice.delta.toolCalls

/-- The text of all choices of a chunk. -/
def ChatCompletionsStreamResponse.content : String :=
  String.join (response.choices.map fun choice => choice.delta.getContentString)

def ChatCompletionsStreamResponse.reasoning : String :=
  String.join (response.choices.map fun choice => choice.delta.getReasoningContent)

/-- Some choice has a finish reason, an empty one included. -/
def ChatCompletionsStreamResponse.finishes : Bool :=
  response.choices.any fun choice => choice.finishReason.isSome

end WynthApi.Relay
