import WynthApi.Lib.GoText

/-!
# The events of a Responses stream

What the stream converters read of a `ResponsesStreamResponse` and of the response it may carry, and
what they fill in when they write one.  The arguments of a call are raw JSON: a JSON string, or the text
of any other JSON value.
-/

namespace WynthApi.Relay

inductive ResponsesEventType
  | created
  | completed
  | done
  | incomplete
  | failed
  | error
  | outputTextDelta
  | outputTextDone
  | outputItemAdded
  | outputItemDone
  | functionArgsDelta
  | functionArgsDone
  | customToolInputDelta
  | customToolInputDone
  | reasoningSummaryDelta
  | reasoningSummaryDone
  | reasoningTextDelta
  | reasoningTextDone
  | other
  deriving DecidableEq, Repr

inductive ResponsesOutputType
  | message
  | reasoning
  | functionCall
  | customToolCall
  | toolSearchCall
  | other
  deriving DecidableEq, Repr

inductive ResponsesContentType
  | outputText
  | summaryText
  | other
  deriving DecidableEq, Repr

structure ResponsesOutputContent where
  type : ResponsesContentType
  text : String
  deriving DecidableEq, Repr

/-- Raw JSON: absent, a string with its value, or the text of another value. -/
inductive RawMessage
  | absent
  | string (value : String)
  | json (text : String)
  deriving DecidableEq, Repr

/-- `JsonRawMessageToString`. -/
def RawMessage.toText : RawMessage → String
  | .absent => ""
  | .string value => value
  | .json text =>
    let trimmed := GoText.trimSpace text
    if trimmed = "null" then "" else trimmed

structure ResponsesOutput where
  type : ResponsesOutputType
  id : String := ""
  status : String := ""
  role : String := ""
  content : List ResponsesOutputContent := []
  callId : String := ""
  name : String := ""
  space : String := ""
  arguments : RawMessage := .absent
  deriving DecidableEq, Repr

def ResponsesOutput.argumentsString (output : ResponsesOutput) : String := output.arguments.toText

def ResponsesOutputType.isTool : ResponsesOutputType → Bool
  | .functionCall => true
  | .customToolCall => true
  | _ => false

structure OpenAIResponsesResponse (Usage : Type) where
  id : String := ""
  model : String := ""
  createdAt : ℤ := 0
  status : Option String := none
  incompleteReason : Option String := none
  output : List ResponsesOutput := []
  usage : Option Usage := none
  deriving DecidableEq, Repr

structure ResponsesStreamResponse (Usage : Type) where
  type : ResponsesEventType := .other
  response : Option (OpenAIResponsesResponse Usage) := none
  delta : String := ""
  item : Option ResponsesOutput := none
  outputIndex : Option ℤ := none
  itemID : String := ""
  deriving DecidableEq, Repr

section helpers

variable {Usage : Type}

def responseStatusString (response : OpenAIResponsesResponse Usage) : String :=
  match response.status with
  | none => ""
  | some status => GoText.trimSpace status

variable (response : Option (OpenAIResponsesResponse Usage))

/-- An incomplete response ends a chat stream with a reason of its own. -/
def responsesFinishReasonFromStatus : Option String :=
  match response with
  | none => none
  | some response =>
    if responseStatusString response ≠ "incomplete" then none
    else if response.incompleteReason.map GoText.trimSpace = some "content_filter" then
      some "content_filter"
    else some "length"

def ensureIncompleteResponse : OpenAIResponsesResponse Usage :=
  let response := response.getD {}
  match response.status with
  | none => { response with status := some "incomplete" }
  | some _ => response

def nonBlank (text : String) : Option String :=
  if GoText.trimSpace text ≠ "" then some (GoText.trimSpace text) else none

def responseStreamEventItemID (event : ResponsesStreamResponse Usage) : Option String :=
  match event.item with
  | some item => (nonBlank item.id).or (nonBlank event.itemID)
  | none => nonBlank event.itemID

end helpers

end WynthApi.Relay
