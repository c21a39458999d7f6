import WynthApi.Relay.ToolBook

/-!
# A Responses stream as a stream of chat chunks

`responsesStreamEventToChatChunks` turns one event into chat chunks.  Text, reasoning and tool calls are
forwarded as they come; a terminal event replays the items of its response, as far as nothing of their
kind was sent before, and ends the stream with one chunk that carries the finish reason.
`finalizeResponsesToChatStream` ends it if no terminal event did.
-/

namespace WynthApi.Relay

open Emit

structure ResponsesToChatStreamState (Usage : Type) where
  id : String := ""
  model : String
  created : ℤ
  includeUsage : Bool
  usage : Option Usage
  sentStart : Bool := false
  finalized : Bool := false
  hasSentText : Bool := false
  sawToolCall : Bool := false
  hasSentReasoning : Bool := false
  needsReasoningSummaryBreak : Bool := false
  book : ToolBook := {}

def newResponsesToChatStreamState {Usage : Type} (model : String) (created : ℤ) (includeUsage : Bool)
    (usage : Usage) : ResponsesToChatStreamState Usage where
  model := model
  created := created
  includeUsage := includeUsage
  usage := some usage

def ResponsesEventType.isTerminal : ResponsesEventType → Bool
  | .completed => true
  | .done => true
  | .incomplete => true
  | _ => false

section converter

variable {Usage : Type}

abbrev ChatProgram (Usage : Type) :=
  Program (ResponsesToChatStreamState Usage) (ChatCompletionsStreamResponse Usage)

variable (s : ResponsesToChatStreamState Usage)

def makeChunk (delta : ChoiceDelta)
    (finishReason : Option String) : ChatCompletionsStreamResponse Usage where
  id := s.id
  model := s.model
  created := s.created
  choices := [{ delta, finishReason }]

def ensureStart : ChatProgram Usage := fun s =>
  if s.sentStart then ([], s)
  else ([makeChunk s { role := "assistant", content := some "" } none], { s with sentStart := true })

/-- A chunk, after the opening chunk if that is still to come. -/
def send (delta : ChoiceDelta) : ChatProgram Usage :=
  andThen ensureStart (write fun s => [makeChunk s delta none])

def textDelta (delta : String) : ChatProgram Usage :=
  if delta = "" then skip
  else
    andThen (update fun s => { s with hasSentText := true }) (send { content := some delta })

/-- The blank line before a new paragraph of reasoning, as far as the text lacks it. -/
def withBreak (needsBreak : Bool) (delta : String) : String :=
  if needsBreak then
    if GoText.startsWith delta "\n\n" then delta
    else if GoText.startsWith delta "\n" then "\n" ++ delta
    else "\n\n" ++ delta
  else delta

def reasoningSent : ResponsesToChatStreamState Usage :=
  { s with needsReasoningSummaryBreak := false, hasSentReasoning := true }

def reasoningDelta (delta : String) : ChatProgram Usage := fun s =>
  if delta = "" then ([], s)
  else
    andThen (send { reasoningContent := some (withBreak s.needsReasoningSummaryBreak delta) })
      (update reasoningSent) s

def sendFragment (fragment : ToolCallResponse) : ChatProgram Usage :=
  andThen (send { toolCalls := [fragment] })
    (update fun s => { s with sawToolCall := true })

def sendTools (program : Program ToolBook ToolCallResponse) : ChatProgram Usage := fun s =>
  each sendFragment (program s.book).1 { s with book := (program s.book).2 }

/-! ### The terminal event -/

variable (output : ResponsesOutput)

def ResponsesOutput.outputText : String :=
  String.join ((output.content.filter fun c => c.type = .outputText).map ResponsesOutputContent.text)

def ResponsesOutput.reasoningText : String :=
  String.join (output.content.map ResponsesOutputContent.text)

def terminalOutput : ChatProgram Usage := fun s =>
  match output.type with
  | .message => if s.hasSentText then ([], s) else textDelta output.outputText s
  | .reasoning => if s.hasSentReasoning then ([], s) else reasoningDelta output.reasoningText s
  | type =>
    if type.isTool then sendTools (toolItem ({ item := some output } : ResponsesStreamResponse Usage)) s
    else ([], s)

variable (response : Option (OpenAIResponsesResponse Usage))

def outputsOf : List ResponsesOutput :=
  (response.map OpenAIResponsesResponse.output).getD []

def terminalOutputChunks : ChatProgram Usage :=
  each terminalOutput (outputsOf response)

def finishReasonOf (s : ResponsesToChatStreamState Usage) : String :=
  match responsesFinishReasonFromStatus response with
  | some reason => reason
  | none => if s.sawToolCall then "tool_calls" else "stop"

def usageChunks : List (ChatCompletionsStreamResponse Usage) :=
  match s.includeUsage, s.usage with
  | true, some usage => [{ id := s.id, model := s.model, created := s.created, usage := some usage }]
  | _, _ => []

def finalize : ChatProgram Usage := fun s =>
  if s.finalized then ([], s)
  else
    andThen (sendTools flushAllPendingTools) (andThen ensureStart (write fun s =>
      makeChunk s {} (some (finishReasonOf response s)) :: usageChunks s))
      { s with finalized := true }

/-! ### The converter -/

variable (usageFromResponsesUsage : Usage → Usage)

def applyResponseMetadata (response : Option (OpenAIResponsesResponse Usage)) (s : ResponsesToChatStreamState Usage) :
    ResponsesToChatStreamState Usage :=
  match response with
  | none => s
  | some response =>
    { s with
      id := if response.id ≠ "" ∧ s.id = "" then response.id else s.id
      model := if response.model ≠ "" then response.model else s.model
      created := if response.createdAt ≠ 0 then response.createdAt else s.created
      usage := (response.usage.map usageFromResponsesUsage).or s.usage }

def terminal (response : Option (OpenAIResponsesResponse Usage)) : ChatProgram Usage :=
  andThen (update (applyResponseMetadata usageFromResponsesUsage response))
    (andThen (terminalOutputChunks response) (finalize response))

def markBreak : ResponsesToChatStreamState Usage :=
  { s with needsReasoningSummaryBreak := s.needsReasoningSummaryBreak || s.hasSentReasoning }

variable (event : ResponsesStreamResponse Usage)

def itemEvent : ChatProgram Usage :=
  match event.item with
  | none => skip
  | some item => if item.type.isTool then sendTools (toolItem event) else skip

def responsesStreamEventToChatChunks : Except String (ChatProgram Usage) :=
  match event.type with
  | .created =>
    .ok (andThen (update (applyResponseMetadata usageFromResponsesUsage event.response))
      ensureStart)
  | .reasoningSummaryDelta | .reasoningTextDelta => .ok (reasoningDelta event.delta)
  | .reasoningSummaryDone | .reasoningTextDone => .ok (update markBreak)
  | .outputTextDelta => .ok (textDelta event.delta)
  | .outputItemAdded | .outputItemDone => .ok (itemEvent event)
  | .functionArgsDelta | .customToolInputDelta => .ok (sendTools (toolArgumentsDelta event))
  | .functionArgsDone | .customToolInputDone => .ok (sendTools (flushPendingTool event))
  | .completed | .done => .ok (terminal usageFromResponsesUsage event.response)
  | .incomplete =>
    .ok (terminal usageFromResponsesUsage (some (ensureIncompleteResponse event.response)))
  | .failed => .error "responses stream error: response.failed"
  | .error => .error "responses stream error: response.error"
  | _ => .ok skip

def finalizeResponsesToChatStream : ChatProgram Usage := finalize none

/-- An event that is refused writes nothing and leaves the state as it is. -/
def chatStep : ChatProgram Usage :=
  match responsesStreamEventToChatChunks usageFromResponsesUsage event with
  | .ok program => program
  | .error _ => skip

def chatStream : List (ResponsesStreamResponse Usage) → ChatProgram Usage :=
  each (chatStep usageFromResponsesUsage)

end converter

end WynthApi.Relay
