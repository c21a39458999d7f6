import WynthApi.Lib.Emit
import WynthApi.Lib.GoText
import WynthApi.Relay.ChatChunk

/-!
# A chat completion stream as a stream of Claude messages

The first chunk opens the message, later ones open, fill and close content blocks.  Text and thinking have one open
block, parallel tool calls one each, numbered from `toolCallBaseIndex` on.  A finish reason ends the message as soon
as the usage is known; `finalizeStreamResponseOpenAI2Claude` ends it if nothing else did.

The host counts the calls (`sendResponseCount`) and may put a usage into the state before any of them.
-/

namespace WynthApi.Relay

open Emit

inductive LastMessagesType
  | none
  | text
  | tools
  | thinking
  deriving DecidableEq, Repr

structure ClaudeConvertInfo (Usage : Type) where
  lastMessagesType : LastMessagesType := .none
  index : ℤ := 0
  usage : Option Usage := none
  finishReason : String := ""
  done : Bool := false
  toolCallBaseIndex : ℤ := 0
  toolCallMaxIndexOffset : ℤ := 0
  deriving DecidableEq, Repr

inductive ContentBlock
  | text
  | thinking
  | toolUse (id name : String)
  deriving DecidableEq, Repr

inductive BlockDelta
  | text (text : String)
  | thinking (thinking : String)
  | inputJson (partialJson : String)
  deriving DecidableEq, Repr

inductive ClaudeResponse (ClaudeUsage : Type)
  | messageStart (id model : String) (inputTokens : ℤ)
  | contentBlockStart (index : ℤ) (block : ContentBlock)
  | contentBlockDelta (index : ℤ) (delta : BlockDelta)
  | contentBlockStop (index : ℤ)
  | messageDelta (stopReason : String) (usage : Option ClaudeUsage)
  | messageStop
  deriving DecidableEq, Repr

/-- Lower case as in Go, for the characters whose lower case is ASCII. -/
def lower (c : Char) : Char := if c = '\u0130' then 'i' else if c = '\u212A' then 'k' else c.toLower

def stopReasonOpenAI2Claude (reason : String) : String :=
  match String.ofList (reason.toList.map lower) with
  | "stop" => "end_turn"
  | "stop_sequence" => "stop_sequence"
  | "length" => "max_tokens"
  | "max_tokens" => "max_tokens"
  | "content_filter" => "refusal"
  | "tool_calls" => "tool_use"
  | _ => reason

section converter

variable {Usage ClaudeUsage : Type} (buildClaudeUsage : Usage → ClaudeUsage)

abbrev Converter (Usage ClaudeUsage : Type) :=
  Program (ClaudeConvertInfo Usage) (ClaudeResponse ClaudeUsage)

def generateStopBlock (index : ℤ) : ClaudeResponse ClaudeUsage := .contentBlockStop index

variable (state : ClaudeConvertInfo Usage)

def stopOpenBlocks : List (ClaudeResponse ClaudeUsage) :=
  match state.lastMessagesType with
  | .text | .thinking => [generateStopBlock state.index]
  | .tools =>
    (List.range (state.toolCallMaxIndexOffset + 1).toNat).map fun (offset : ℕ) =>
      generateStopBlock (state.toolCallBaseIndex + offset)
  | .none => []

def appendStopOpenBlocks : Converter Usage ClaudeUsage := write stopOpenBlocks

/-- The state part of `stopOpenBlocksAndAdvance`: the next free block index. -/
def advance : ClaudeConvertInfo Usage :=
  match state.lastMessagesType with
  | .none => state
  | .tools =>
    { state with
      index := state.toolCallBaseIndex + state.toolCallMaxIndexOffset + 1
      toolCallBaseIndex := 0
      toolCallMaxIndexOffset := 0
      lastMessagesType := .none }
  | .text | .thinking => { state with index := state.index + 1, lastMessagesType := .none }

def stopOpenBlocksAndAdvance : Converter Usage ClaudeUsage := fun state =>
  (stopOpenBlocks state, advance state)

/-- `if state.LastMessagesType != last { stopOpenBlocksAndAdvance() … }`. -/
def unlessLast (last : LastMessagesType) (p : Converter Usage ClaudeUsage) :
    Converter Usage ClaudeUsage := fun state =>
  if state.lastMessagesType ≠ last then p state else ([], state)

def startBlock (block : ContentBlock) : Converter Usage ClaudeUsage :=
  write fun state => [.contentBlockStart state.index block]

/-- A `content_block_delta` at the current index, whose kind is the last one from now on. -/
def deltaBlock (last : LastMessagesType) (delta : BlockDelta) : Converter Usage ClaudeUsage :=
  fun state => ([.contentBlockDelta state.index delta], { state with lastMessagesType := last })

def setFinishReason (reason : String) (state : ClaudeConvertInfo Usage) : ClaudeConvertInfo Usage :=
  { state with finishReason := reason }

def setDone : ClaudeConvertInfo Usage := { state with done := true }

variable (response : ChatCompletionsStreamResponse Usage)

def ChatCompletionsStreamResponse.usageOr (state : ClaudeConvertInfo Usage) : Option Usage :=
  match response.usage with
  | some usage => some usage
  | none => state.usage

variable (choice : Choice)

def Choice.finish : Option String :=
  match choice.finishReason with
  | some reason => if reason ≠ "" then some reason else none
  | none => none

/-! ### The first chunk -/

variable (toolCall : ToolCallResponse)

def firstToolCall : Converter Usage ClaudeUsage := fun state =>
  (.contentBlockStart 0 (.toolUse toolCall.id toolCall.function.name) ::
    (if toolCall.function.arguments ≠ "" then
      [.contentBlockDelta 0 (.inputJson toolCall.function.arguments)] else []),
    { state with
      lastMessagesType := .tools, toolCallBaseIndex := 0, toolCallMaxIndexOffset := 0 })

variable (delta : ChoiceDelta)

def firstContent : Converter Usage ClaudeUsage :=
  if delta.getReasoningContent ≠ "" then
    andThen (unlessLast .thinking stopOpenBlocksAndAdvance)
      (andThen (startBlock .thinking)
        (deltaBlock .thinking (.thinking delta.getReasoningContent)))
  else if delta.getContentString ≠ "" then
    andThen (unlessLast .text stopOpenBlocksAndAdvance)
      (andThen (startBlock .text) (deltaBlock .text (.text delta.getContentString)))
  else skip

/-- The first chunk's finish reason; without a usage the end is left to a later chunk. -/
def firstFinish : Converter Usage ClaudeUsage :=
  match choice.finish with
  | none => skip
  | some reason => andThen (update (setFinishReason reason)) fun state =>
    match response.usageOr state with
    | none => ([], state)
    | some usage =>
      (stopOpenBlocks state ++
        [.messageDelta (stopReasonOpenAI2Claude reason) (some (buildClaudeUsage usage)),
          .messageStop], setDone state)

variable (estimatePromptTokens : ℤ)

def firstChunk : Converter Usage ClaudeUsage :=
  andThen
    (write fun _ => [.messageStart response.id response.model estimatePromptTokens])
    (match response.choices with
      | [] => skip
      | choice :: _ =>
        andThen
          (match choice.delta.toolCalls with
            | [] => skip
            | toolCall :: _ => firstToolCall toolCall)
          (andThen (firstContent choice.delta)
            (firstFinish buildClaudeUsage response choice)))

/-! ### Later chunks -/

/-- A chunk without choices ends the message once a usage is known. -/
def usageChunk : Converter Usage ClaudeUsage :=
  fun state =>
    match response.usageOr state with
    | none => ([], state)
    | some usage =>
      let stopReason := stopReasonOpenAI2Claude state.finishReason
      (stopOpenBlocks state ++
        [.messageDelta (if stopReason = "" then "end_turn" else stopReason)
          (some (buildClaudeUsage usage)), .messageStop], setDone state)

def ToolCallResponse.offset (i : ℕ) : ℤ :=
  match toolCall.index with
  | some index => index
  | none => i

def toolFragment (fragment : ToolCallResponse × ℕ) : Converter Usage ClaudeUsage := fun state =>
  let toolCall := fragment.1
  let offset := toolCall.offset fragment.2
  let blockIndex := state.toolCallBaseIndex + offset
  ((if toolCall.function.name ≠ "" then
      [.contentBlockStart blockIndex (.toolUse toolCall.id toolCall.function.name)] else []) ++
    (if toolCall.function.arguments ≠ "" then
      [.contentBlockDelta blockIndex (.inputJson toolCall.function.arguments)] else []),
    { state with
      toolCallMaxIndexOffset :=
        if offset > state.toolCallMaxIndexOffset then offset else state.toolCallMaxIndexOffset })

/-- A new series of tool calls starts at the next free index. -/
def openSeries : Converter Usage ClaudeUsage :=
  andThen stopOpenBlocksAndAdvance (update fun state =>
    { state with toolCallBaseIndex := state.index, toolCallMaxIndexOffset := 0 })

def enterTools : ClaudeConvertInfo Usage :=
  { state with lastMessagesType := .tools }

def leaveTools : ClaudeConvertInfo Usage :=
  { state with index := state.toolCallBaseIndex + state.toolCallMaxIndexOffset }

def laterToolCalls (toolCalls : List ToolCallResponse) : Converter Usage ClaudeUsage :=
  andThen (unlessLast .tools openSeries)
    (andThen (update enterTools)
      (andThen (each toolFragment toolCalls.zipIdx) (update leaveTools)))

/-- A later chunk's tool calls; without any, its reasoning; without that, its text. -/
def laterContent : Converter Usage ClaudeUsage :=
  if delta.toolCalls ≠ [] then laterToolCalls delta.toolCalls
  else if delta.getReasoningContent ≠ "" then
    andThen
      (unlessLast .thinking (andThen stopOpenBlocksAndAdvance (startBlock .thinking)))
      (deltaBlock .thinking (.thinking delta.getReasoningContent))
  else if delta.getContentString ≠ "" then
    andThen (unlessLast .text (andThen stopOpenBlocksAndAdvance (startBlock .text)))
      (deltaBlock .text (.text delta.getContentString))
  else skip

def closeMessage : Converter Usage ClaudeUsage :=
  andThen appendStopOpenBlocks fun state =>
    ((match response.usageOr state with
      | none => []
      | some usage =>
        [.messageDelta (stopReasonOpenAI2Claude state.finishReason)
          (some (buildClaudeUsage usage))]) ++ [.messageStop], setDone state)

/-- A finish reason without a usage returns before anything else of the chunk is looked at. -/
def laterChunk : Converter Usage ClaudeUsage :=
  match choice.finish with
  | none => andThen (laterContent choice.delta) fun state =>
    if state.done then closeMessage buildClaudeUsage response state else ([], state)
  | some reason =>
    match response.usage with
    | none => update (setFinishReason reason)
    | some _ =>
      andThen (update (setFinishReason reason))
        (andThen (laterContent choice.delta) (closeMessage buildClaudeUsage response))

def laterResponse : Converter Usage ClaudeUsage :=
  match response.choices with
  | [] => usageChunk buildClaudeUsage response
  | choice :: _ => laterChunk buildClaudeUsage response choice

/-! ### The stream -/

structure Info (Usage : Type) where
  sendResponseCount : ℤ := 0
  estimatePromptTokens : ℤ := 0
  claudeConvertInfo : ClaudeConvertInfo Usage := {}
  deriving DecidableEq, Repr

def streamResponseOpenAI2Claude :
    Program (Info Usage) (ClaudeResponse ClaudeUsage) := fun info =>
  if info.claudeConvertInfo.done then ([], info)
  else
    let out := (if info.sendResponseCount = 1 then
        firstChunk buildClaudeUsage response info.estimatePromptTokens
      else laterResponse buildClaudeUsage response) info.claudeConvertInfo
    (out.1, { info with claudeConvertInfo := out.2 })

def finalizeStreamResponseOpenAI2Claude :
    Program (Info Usage) (ClaudeResponse ClaudeUsage) := fun info =>
  let state := info.claudeConvertInfo
  if state.done then ([], info)
  else
    let stopReason := stopReasonOpenAI2Claude state.finishReason
    (stopOpenBlocks state ++
      [.messageDelta (if stopReason = "" then "end_turn" else stopReason)
        (state.usage.map buildClaudeUsage), .messageStop],
      { info with claudeConvertInfo := setDone state })

def storeUsage (stored : Option Usage) (info : Info Usage) : Info Usage :=
  { info with claudeConvertInfo :=
    { info.claudeConvertInfo with usage := stored.or info.claudeConvertInfo.usage } }

def incrSendResponseCount (info : Info Usage) : Info Usage :=
  { info with sendResponseCount := info.sendResponseCount + 1 }

structure Arrival (Usage : Type) where
  response : ChatCompletionsStreamResponse Usage
  stored : Option Usage := none
  deriving DecidableEq, Repr

def arrive (arrival : Arrival Usage) : Program (Info Usage) (ClaudeResponse ClaudeUsage) :=
  andThen (update fun info => incrSendResponseCount (storeUsage arrival.stored info))
    (streamResponseOpenAI2Claude buildClaudeUsage arrival.response)

def claudeStream (arrivals : List (Arrival Usage))
    (stored : Option Usage) : List (ClaudeResponse ClaudeUsage) :=
  (andThen (each (arrive buildClaudeUsage) arrivals)
    (andThen (update (storeUsage stored))
      (finalizeStreamResponseOpenAI2Claude buildClaudeUsage)))
    { estimatePromptTokens } |>.1

end converter

end WynthApi.Relay
