import Mathlib.Data.Int.Order.Basic
import Mathlib.Data.List.AList
import Mathlib.Data.List.Sort
import WynthApi.Lib.Emit
import WynthApi.Relay.ChatChunk
import WynthApi.Relay.ResponsesEvent

/-!
# A stream of chat chunks as a Responses stream

Text, reasoning and every tool call become an output item each, which takes the next output index when it first
occurs, is added, filled by deltas and done.  A finish reason makes all items done, or else
`finalizeChatCompletionsStreamToResponses`, which ends the stream with a response that lists the items.

The metadata brings back the names of tools that the chat request had to change, so a call is announced only when
its name cannot grow into another declared name any more; until then its arguments are kept back.
-/

namespace WynthApi.Relay

open Emit

structure ResponsesNamespacedTool where
  (space name : String)
  deriving DecidableEq, Repr

structure ResponsesToolRestoreMetadata where
  reverseToolNames : AList fun _ : String => ResponsesNamespacedTool := ∅
  toolSearchDeclared : Bool := false

structure ChatToResponsesStreamEvent (Usage : Type) extends ResponsesStreamResponse Usage where
  contentIndex : Option ℤ := none
  summaryIndex : Option ℤ := none
  part : Option String := none
  deriving DecidableEq, Repr

structure ChatToResponsesStreamTool where
  (chatIndex outputIndex : ℤ)
  id : String
  name : String := ""
  arguments : String := ""
  done : Bool := false
  announced : Bool := false
  deriving DecidableEq, Repr

inductive ChatToResponsesOutputRef
  | message
  | reasoning
  | tool (chatIndex : ℤ)
  deriving DecidableEq, Repr

structure ChatToResponsesStreamState (Usage : Type) where
  (id model : String)
  created : ℤ
  usage : Usage
  status : String := "completed"
  incompleteReason : Option String := none
  sentCreated : Bool := false
  textOutputIndex : ℤ := -1
  textStarted : Bool := false
  textDone : Bool := false
  reasoningIndex : ℤ := -1
  reasoningStarted : Bool := false
  reasoningDone : Bool := false
  finalized : Bool := false
  nextOutputIndex : ℤ := 0
  toolsByIndex : AList fun _ : ℤ => ChatToResponsesStreamTool := ∅
  outputOrder : List ChatToResponsesOutputRef := []
  text : String := ""
  reasoning : String := ""
  toolRestore : Option ResponsesToolRestoreMetadata := none

def newChatToResponsesStreamState {Usage : Type} (id model : String) (created : ℤ) (usage : Usage)
    (restore : Option ResponsesToolRestoreMetadata) : ChatToResponsesStreamState Usage where
  id := id
  model := model
  created := created
  usage := usage
  toolRestore := restore

/-! ### Restoring tools -/

def chatArgumentsRawMessage (arguments : String) : RawMessage := .string arguments

section restore

variable (unmarshal : String → Option RawMessage) (restore : Option ResponsesToolRestoreMetadata)

def toolSearchArgumentsRawMessage (arguments : String) : RawMessage :=
  let trimmed := GoText.trimSpace arguments
  if trimmed = "" then .json "\x7b\x7d"
  else (unmarshal trimmed).getD (chatArgumentsRawMessage arguments)

def toolOutput (tool : ChatToResponsesStreamTool) (status : String) : ResponsesOutput :=
  let output : ResponsesOutput :=
    { type := .functionCall, id := tool.id, status, callId := tool.id, name := tool.name,
      arguments := chatArgumentsRawMessage tool.arguments }
  match restore with
  | none => output
  | some restore =>
    if restore.toolSearchDeclared ∧ tool.name = "tool_search" then
      { output with type := .toolSearchCall, name := "",
                    arguments := toolSearchArgumentsRawMessage unmarshal tool.arguments }
    else
      match restore.reverseToolNames.lookup tool.name with
      | some original => { output with name := original.name, space := original.space }
      | none => output

def growsInto (name declared : String) : Bool :=
  declared ≠ name && GoText.startsWith declared name

def announces (name : String) : Bool :=
  match restore with
  | none => true
  | some restore =>
    name ≠ "" && !(restore.reverseToolNames.keys.any (growsInto name)) &&
      !(restore.toolSearchDeclared && growsInto name "tool_search")

end restore

section converter

variable {Usage : Type} (unmarshal : String → Option RawMessage)

abbrev ResponsesProgram (Usage : Type) :=
  Program (ChatToResponsesStreamState Usage) (ChatToResponsesStreamEvent Usage)

/-! ### One tool call -/

section tool

variable (restore : Option ResponsesToolRestoreMetadata)

abbrev ToolProgram (Usage : Type) :=
  Program ChatToResponsesStreamTool (ChatToResponsesStreamEvent Usage)

def toolAdded (tool : ChatToResponsesStreamTool) : ChatToResponsesStreamEvent Usage where
  type := .outputItemAdded
  outputIndex := some tool.outputIndex
  itemID := tool.id
  item := some { toolOutput unmarshal restore tool "in_progress" with arguments := .string "" }

def toolArgsDelta (tool : ChatToResponsesStreamTool) (delta : String) :
    ChatToResponsesStreamEvent Usage where
  type := .functionArgsDelta
  outputIndex := some tool.outputIndex
  itemID := tool.id
  delta := delta

variable (toolCall : ToolCallResponse) (tool : ChatToResponsesStreamTool)

/-- A fragment may bring the id of the call and a part of its name. -/
def nameTool : ChatToResponsesStreamTool :=
  { tool with id := (nonBlank toolCall.id).getD tool.id, name := tool.name ++ toolCall.function.name }

@[simp] theorem nameTool_name : (nameTool toolCall tool).name = tool.name ++ toolCall.function.name := by rw [nameTool]

@[simp] theorem nameTool_arguments : (nameTool toolCall tool).arguments = tool.arguments := by rw [nameTool]

@[simp] theorem nameTool_announced : (nameTool toolCall tool).announced = tool.announced := by rw [nameTool]

@[simp] theorem nameTool_done : (nameTool toolCall tool).done = tool.done := by rw [nameTool]

@[simp] theorem nameTool_outputIndex : (nameTool toolCall tool).outputIndex = tool.outputIndex := by rw [nameTool]

/-- The call is announced, with the arguments that were kept back. -/
def announceTool : ToolProgram Usage := fun tool =>
  if tool.announced = false ∧ announces restore tool.name then
    (toolAdded unmarshal restore tool ::
      (if tool.arguments ≠ "" ∧ (toolOutput unmarshal restore tool "in_progress").type = .functionCall then
        [toolArgsDelta tool tool.arguments] else []), { tool with announced := true })
  else ([], tool)

def sendArguments (arguments : String) : ToolProgram Usage := fun tool =>
  (if tool.announced = true ∧ (toolOutput unmarshal restore tool "in_progress").type = .functionCall then
    [toolArgsDelta tool arguments] else [], tool)

def writeArguments (arguments : String) : ToolProgram Usage := fun tool =>
  if arguments = "" then ([], tool)
  else sendArguments unmarshal restore arguments { tool with arguments := tool.arguments ++ arguments }

def writeFragment : ToolProgram Usage :=
  andThen (update (nameTool toolCall)) (andThen (announceTool unmarshal restore)
    (writeArguments unmarshal restore toolCall.function.arguments))

def doneTool (status : String) : ToolProgram Usage := fun tool =>
  if tool.done then ([], tool)
  else
    ((if tool.announced then [] else [toolAdded unmarshal restore tool]) ++
      (if (toolOutput unmarshal restore tool status).type = .functionCall then
        [{ type := .functionArgsDone, outputIndex := some tool.outputIndex, itemID := tool.id }] else []) ++
      [{ type := .outputItemDone, outputIndex := some tool.outputIndex,
         item := some (toolOutput unmarshal restore tool status) }],
      { tool with done := true, announced := true })

end tool

/-! ### Items -/

namespace ChatToResponsesStreamState

def nextIndex (ref : ChatToResponsesOutputRef) (s : ChatToResponsesStreamState Usage) :
    ChatToResponsesStreamState Usage :=
  { s with nextOutputIndex := s.nextOutputIndex + 1, outputOrder := s.outputOrder ++ [ref] }

variable (s : ChatToResponsesStreamState Usage)

def messageID : String := s.id ++ "_msg_0"

def reasoningID : String := s.id ++ "_reasoning_0"

def outputStatus : String :=
  if s.status = "incomplete" then "incomplete" else "completed"

def messageOutput : ResponsesOutput where
  type := .message
  id := s.messageID
  status := s.outputStatus
  role := "assistant"
  content := [⟨.outputText, s.text⟩]

def reasoningOutput : ResponsesOutput where
  type := .reasoning
  id := s.reasoningID
  status := s.outputStatus
  content := [⟨.summaryText, s.reasoning⟩]

variable (c : ℤ)

def setTool (tool : ChatToResponsesStreamTool) (s : ChatToResponsesStreamState Usage) :
    ChatToResponsesStreamState Usage :=
  { s with toolsByIndex := s.toolsByIndex.insert c tool }

/-- The tool at a chat index, or a new one that takes the next output index. -/
def findTool (toolCall : ToolCallResponse) (s : ChatToResponsesStreamState Usage) :
    ChatToResponsesStreamTool × ChatToResponsesStreamState Usage :=
  match s.toolsByIndex.lookup c with
  | some tool => (tool, s)
  | none =>
    ({ chatIndex := c, outputIndex := s.nextOutputIndex,
       id := (nonBlank toolCall.id).getD (s.id ++ "_call_" ++ GoText.itoa c) }, s.nextIndex (.tool c))

end ChatToResponsesStreamState

open ChatToResponsesStreamState

variable (s : ChatToResponsesStreamState Usage)

/-- Text and reasoning are written alike. -/
inductive Voice
  | text
  | reasoning

structure Writing where
  started : Bool
  index : ℤ
  done : Bool
  text : String

namespace Voice

def ref : Voice → ChatToResponsesOutputRef
  | text => .message
  | reasoning => .reasoning

def get : Voice → Writing
  | text => ⟨s.textStarted, s.textOutputIndex, s.textDone, s.text⟩
  | reasoning => ⟨s.reasoningStarted, s.reasoningIndex, s.reasoningDone, s.reasoning⟩

def set (w : Writing) : Voice → ChatToResponsesStreamState Usage
  | text => { s with textStarted := w.started, textOutputIndex := w.index, textDone := w.done, text := w.text }
  | reasoning =>
    { s with reasoningStarted := w.started, reasoningIndex := w.index, reasoningDone := w.done, reasoning := w.text }

def added (v : Voice) : ChatToResponsesStreamEvent Usage where
  type := .outputItemAdded
  outputIndex := some s.nextOutputIndex
  item := match v with
    | text => some { type := .message, id := s.messageID, status := "in_progress", role := "assistant" }
    | reasoning => some { type := .reasoning, id := s.reasoningID, status := "in_progress" }

def delta (text : String) : Voice → ChatToResponsesStreamEvent Usage
  | .text =>
    { type := .outputTextDelta, outputIndex := some s.textOutputIndex, contentIndex := some 0, delta := text,
      itemID := s.messageID }
  | .reasoning =>
    { type := .reasoningSummaryDelta, outputIndex := some s.reasoningIndex, summaryIndex := some 0, delta := text,
      itemID := s.reasoningID }

def ended : Voice → ChatToResponsesStreamEvent Usage
  | text =>
    { type := .outputTextDone, outputIndex := some s.textOutputIndex, contentIndex := some 0, itemID := s.messageID }
  | reasoning =>
    { type := .reasoningSummaryDone, outputIndex := some s.reasoningIndex, summaryIndex := some 0,
      itemID := s.reasoningID, part := some s.reasoning }

def output : Voice → ResponsesOutput
  | text => s.messageOutput
  | reasoning => s.reasoningOutput

variable (v : Voice)

def start : ResponsesProgram Usage := fun s =>
  if (v.get s).started then ([], s)
  else ([v.added s], v.set (s.nextIndex v.ref) { v.get s with started := true, index := s.nextOutputIndex })

def write (text : String) : ResponsesProgram Usage := fun s =>
  ([v.delta s text], v.set s { v.get s with text := (v.get s).text ++ text })

def append (text : String) : ResponsesProgram Usage := andThen v.start (v.write text)

def finish : ResponsesProgram Usage := fun s =>
  if (v.get s).started = true ∧ (v.get s).done = false then
    ([v.ended s, { type := .outputItemDone, outputIndex := some (v.get s).index, item := some (v.output s) }],
      v.set s { v.get s with done := true })
  else ([], s)

end Voice

def appendTextDelta (delta : String) : ResponsesProgram Usage := Voice.text.append delta

def appendReasoningDelta (delta : String) : ResponsesProgram Usage := Voice.reasoning.append delta

/-- A fragment without an index belongs to the call at chat index 0. -/
def appendToolCallDelta (toolCall : ToolCallResponse) : ResponsesProgram Usage := fun s =>
  let c := toolCall.index.getD 0
  let found := s.findTool c toolCall
  let written := writeFragment unmarshal s.toolRestore toolCall found.1
  (written.1, found.2.setTool c written.2)

/-! ### The end of the items -/

def doneToolAt (c : ℤ) : ResponsesProgram Usage := fun s =>
  match s.toolsByIndex.lookup c with
  | none => ([], s)
  | some tool =>
    let written := doneTool unmarshal s.toolRestore s.outputStatus tool
    (written.1, s.setTool c written.2)

def sortedTools : List ℤ :=
  s.toolsByIndex.keys.insertionSort (· ≤ ·)

def doneDeltaEvents : ResponsesProgram Usage :=
  andThen Voice.text.finish (andThen Voice.reasoning.finish fun s =>
    each (doneToolAt unmarshal) (sortedTools s) s)

def responsesStatusFromChatFinishReason (finishReason : String) : String × Option String :=
  if GoText.trimSpace finishReason = "length" then ("incomplete", some "max_output_tokens")
  else if GoText.trimSpace finishReason = "content_filter" then ("incomplete", some "content_filter")
  else ("completed", none)

def applyFinishReason (finishReason : String) (s : ChatToResponsesStreamState Usage) :
    ChatToResponsesStreamState Usage :=
  { s with
    status := (responsesStatusFromChatFinishReason finishReason).1
    incompleteReason := (responsesStatusFromChatFinishReason finishReason).2 }

/-! ### The converter -/

def outputAt : ChatToResponsesOutputRef → Option ResponsesOutput
  | .message => some s.messageOutput
  | .reasoning => some s.reasoningOutput
  | .tool c => (s.toolsByIndex.lookup c).map fun tool =>
    toolOutput unmarshal s.toolRestore tool s.outputStatus

def finalResponse : OpenAIResponsesResponse Usage where
  id := s.id
  createdAt := s.created
  status := some s.status
  incompleteReason := s.incompleteReason
  model := s.model
  output := s.outputOrder.filterMap (outputAt unmarshal s)
  usage := some s.usage

def createdResponse : OpenAIResponsesResponse Usage where
  id := s.id
  createdAt := s.created
  status := some "in_progress"
  model := s.model

def sendCreated : ResponsesProgram Usage := fun s =>
  if s.sentCreated then ([], s)
  else ([{ type := .created, response := some (createdResponse s) }], { s with sentCreated := true })

variable (usageFromChatUsage : Usage → Usage) (chunk : ChatCompletionsStreamResponse Usage)

def applyChunkMetadata (s : ChatToResponsesStreamState Usage) : ChatToResponsesStreamState Usage :=
  { s with
    id := if s.id = "" then chunk.id else s.id
    model := if s.model = "" then chunk.model else s.model
    created := if s.created = 0 then chunk.created else s.created
    usage := (chunk.usage.map usageFromChatUsage).getD s.usage }

def finishChoice : Option String → ResponsesProgram Usage
  | none => skip
  | some reason =>
    if GoText.trimSpace reason ≠ "" then
      andThen (update (applyFinishReason reason)) (doneDeltaEvents unmarshal)
    else skip

def choiceEvents (choice : Choice) : ResponsesProgram Usage :=
  andThen
    (if choice.delta.getReasoningContent ≠ "" then appendReasoningDelta choice.delta.getReasoningContent
      else skip)
    (andThen
      (if choice.delta.getContentString ≠ "" then appendTextDelta choice.delta.getContentString
        else skip)
      (andThen (each (appendToolCallDelta unmarshal) choice.delta.toolCalls)
        (finishChoice unmarshal choice.finishReason)))

def chatCompletionsStreamChunkToResponsesEvents : ResponsesProgram Usage :=
  andThen (update (applyChunkMetadata usageFromChatUsage chunk))
    (andThen sendCreated (each (choiceEvents unmarshal) chunk.choices))

def terminalEvent : ChatToResponsesStreamEvent Usage where
  type := if s.status = "incomplete" then .incomplete else .completed
  response := some (finalResponse unmarshal s)

def finalizeChatCompletionsStreamToResponses : ResponsesProgram Usage := fun s =>
  if s.finalized then ([], s)
  else
    andThen (doneDeltaEvents unmarshal) (andThen (update fun s => { s with finalized := true })
      (write fun s => [terminalEvent unmarshal s])) s

def responsesStream (chunks : List (ChatCompletionsStreamResponse Usage)) : ResponsesProgram Usage :=
  andThen (each (chatCompletionsStreamChunkToResponsesEvents unmarshal usageFromChatUsage) chunks)
    (finalizeChatCompletionsStreamToResponses unmarshal)

end converter

end WynthApi.Relay
