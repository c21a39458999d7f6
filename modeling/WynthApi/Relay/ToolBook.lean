import Mathlib.Data.List.AList
import Mathlib.Data.List.Sort
import WynthApi.Lib.Emit
import WynthApi.Relay.ChatChunk
import WynthApi.Relay.ResponsesEvent

/-!
# The tool calls of a Responses stream on their way to a chat stream

A tool is reached by a key; the output index, the item id and the call id of an event lead to keys, and several keys
may lead to one tool.  Arguments that arrive before their tool is known are kept under their output index or, failing
that, under their item id.  `toolDelta` writes what is new of a tool as one fragment of a chat tool call.

A tool's number serves as the pointer to it.  Offsets in texts count characters.
-/

namespace WynthApi.Relay

/-- A key of `toolByKey`: `output:%d`, `item:%s` or `call:%s`. -/
inductive ToolKey
  | output (index : ℤ)
  | item (id : String)
  | call (id : String)
  deriving DecidableEq, Repr

def ToolKey.text : ToolKey → String
  | .output index => "output:" ++ GoText.itoa index
  | .item id => "item:" ++ id
  | .call id => "call:" ++ id

structure ResponsesStreamTool where
  key : ToolKey
  callID : String := ""
  itemID : String := ""
  name : String := ""
  arguments : String := ""
  index : ℕ
  sent : Bool := false
  nameSent : Bool := false
  argsSentAt : ℕ := 0
  deriving DecidableEq, Repr

structure ToolBook where
  nextToolIndex : ℕ := 0
  tools : ℕ → ResponsesStreamTool := fun index => { key := .output 0, index }
  toolByKey : AList fun _ : ToolKey => ℕ := ∅
  outputIndexToKey : AList fun _ : ℤ => ToolKey := ∅
  itemIDToKey : AList fun _ : String => ToolKey := ∅
  callIDToKey : AList fun _ : String => ToolKey := ∅
  pendingArgsByOutputIndex : AList fun _ : ℤ => String := ∅
  pendingArgsByItemID : AList fun _ : String => String := ∅

namespace ToolBook

def modify (p : ℕ) (f : ResponsesStreamTool → ResponsesStreamTool) (book : ToolBook) : ToolBook :=
  { book with tools := Function.update book.tools p (f (book.tools p)) }

def newTool (key : ToolKey) (callID : String) (book : ToolBook) : ℕ × ToolBook :=
  let tool := { key, callID, index := book.nextToolIndex }
  (book.nextToolIndex,
    { book with
      nextToolIndex := book.nextToolIndex + 1
      tools := Function.update book.tools book.nextToolIndex tool
      toolByKey := book.toolByKey.insert key book.nextToolIndex })

section find

variable {Usage : Type} (event : ResponsesStreamResponse Usage)

def keyForEvent : Option ToolKey :=
  (event.outputIndex.map .output).or <|
    (event.item.bind fun item =>
      ((nonBlank item.id).map .item).or ((nonBlank item.callId).map .call)).or
    ((nonBlank event.itemID).map .item)

def fallbackToolKey (itemID callID : String) (outputIndex : Option ℤ) : Option ToolKey :=
  (outputIndex.map .output).or (((nonBlank itemID).map .item).or ((nonBlank callID).map .call))

def fallbackCallID : String :=
  match nonBlank event.itemID, event.outputIndex with
  | some itemID, _ => itemID
  | none, some outputIndex => "call_output_" ++ GoText.itoa outputIndex
  | none, none => ""

variable (book : ToolBook)

/-- The first of the three leads that knows a key decides, also if the key has no tool. -/
def findToolForEvent : Option ℕ :=
  match event.outputIndex.bind book.outputIndexToKey.lookup with
  | some key => book.toolByKey.lookup key
  | none =>
    match (nonBlank event.itemID).bind book.itemIDToKey.lookup with
    | some key => book.toolByKey.lookup key
    | none => (event.item.bind fun _ => keyForEvent event).bind book.toolByKey.lookup

variable (item : ResponsesOutput)

def aliasedTool (book : ToolBook) : Option ℕ :=
  (((responseStreamEventItemID event).bind book.itemIDToKey.lookup).bind book.toolByKey.lookup).or
    (((nonBlank item.callId).bind book.callIDToKey.lookup).bind book.toolByKey.lookup)

/-- The tool of a key, else an alias that the key then leads to as well, else a new tool. -/
def toolForKey (key : ToolKey) (event : ResponsesStreamResponse Usage) (item : ResponsesOutput)
    (book : ToolBook) : ℕ × ToolBook :=
  match book.toolByKey.lookup key with
  | some p => (p, book)
  | none =>
    match aliasedTool event item book with
    | some p => (p, { book with toolByKey := book.toolByKey.insert key p })
    | none => book.newTool key ""

def takePending {α : Type} [DecidableEq α] (name : α) (pending : AList fun _ : α => String) :
    String × AList fun _ : α => String :=
  let args := (pending.lookup name).getD ""
  (args, if args ≠ "" then pending.erase name else pending)

/-- The event's output index leads to the key from now on, and what was kept under it joins the
arguments of the tool. -/
def linkOutputIndex (outputIndex : Option ℤ) (key : ToolKey) (p : ℕ) (book : ToolBook) : ToolBook :=
  match outputIndex with
  | none => book
  | some outputIndex =>
    let taken := takePending outputIndex book.pendingArgsByOutputIndex
    { book.modify p fun tool => { tool with arguments := tool.arguments ++ taken.1 } with
      outputIndexToKey := book.outputIndexToKey.insert outputIndex key
      pendingArgsByOutputIndex := taken.2 }

def linkItemID (itemID : Option String) (key : ToolKey) (p : ℕ) (book : ToolBook) : ToolBook :=
  match itemID with
  | none => book
  | some itemID =>
    let taken := takePending itemID book.pendingArgsByItemID
    { book.modify p fun tool =>
        { tool with itemID, arguments := tool.arguments ++ taken.1 } with
      itemIDToKey := book.itemIDToKey.insert itemID key
      pendingArgsByItemID := taken.2 }

/-- Without a call id the item id stands in for it. -/
def linkCallID (key : ToolKey) (p : ℕ) (book : ToolBook) : ToolBook :=
  match nonBlank item.callId with
  | some callID =>
    { book.modify p fun tool => { tool with callID } with
      callIDToKey := book.callIDToKey.insert callID key }
  | none =>
    book.modify p fun tool =>
      if tool.callID = "" then { tool with callID := GoText.trimSpace item.id } else tool

variable (tool : ResponsesStreamTool)

def setName : ResponsesStreamTool :=
  { tool with name := (nonBlank item.name).getD tool.name }

@[simp] theorem setName_index : (setName item tool).index = tool.index := by rw [setName]

@[simp] theorem setName_sent : (setName item tool).sent = tool.sent := by rw [setName]

@[simp] theorem setName_nameSent : (setName item tool).nameSent = tool.nameSent := by rw [setName]

@[simp] theorem setName_arguments : (setName item tool).arguments = tool.arguments := by rw [setName]

@[simp] theorem setName_argsSentAt : (setName item tool).argsSentAt = tool.argsSentAt := by rw [setName]

def ensureToolForEvent : Option (ℕ × ToolBook) :=
  match event.item with
  | none => none
  | some item =>
    match (keyForEvent event).or (fallbackToolKey item.id item.callId event.outputIndex) with
    | none => none
    | some key =>
      let found := toolForKey key event item book
      let linked := linkCallID item key found.1 <|
        linkItemID (responseStreamEventItemID event) key found.1 <|
        linkOutputIndex event.outputIndex key found.1 found.2
      some (found.1, linked.modify found.1 (setName item))

def ensureFallbackToolForEvent : Option (ℕ × ToolBook) :=
  match (event.outputIndex.map ToolKey.output).or ((nonBlank event.itemID).map .item) with
  | none => none
  | some key =>
    let found :=
      match book.toolByKey.lookup key with
      | some p => (p, book)
      | none => book.newTool key (fallbackCallID event)
    some (found.1,
      linkItemID (responseStreamEventItemID event) key found.1 <|
        linkOutputIndex event.outputIndex key found.1 found.2)

end find

end ToolBook

section fragments

variable {Usage : Type} (tool : ResponsesStreamTool)

/-- What is still to be sent of a tool's arguments; an explicit delta goes first. -/
def ResponsesStreamTool.argsDelta (explicitDelta : String) : String :=
  if explicitDelta = "" ∧ tool.argsSentAt < tool.arguments.length then
    GoText.sliceFrom tool.arguments tool.argsSentAt
  else explicitDelta

def ResponsesStreamTool.fragment (argsDelta : String) :
    ToolCallResponse where
  index := some tool.index
  id := (nonBlank tool.callID).getD tool.key.text
  function :=
    { name := if tool.nameSent then "" else tool.name
      arguments := argsDelta }

def ResponsesStreamTool.afterFragment (argsDelta : String) : ResponsesStreamTool :=
  { tool with
    sent := true
    nameSent := tool.nameSent || tool.name ≠ ""
    argsSentAt := tool.argsSentAt + argsDelta.length }

def toolDelta (p : ℕ) (explicitDelta : String) : Emit.Program ToolBook ToolCallResponse := fun book =>
  let tool := book.tools p
  let argsDelta := tool.argsDelta explicitDelta
  if tool.sent ∧ argsDelta = "" ∧ (tool.name = "" ∨ tool.nameSent) then ([], book)
  else ([tool.fragment argsDelta], book.modify p fun tool => tool.afterFragment argsDelta)

variable (event : ResponsesStreamResponse Usage)

def toolItem : Emit.Program ToolBook ToolCallResponse :=
  fun book =>
    match book.ensureToolForEvent event with
    | none => ([], book)
    | some (p, book) =>
      let args := (event.item.map ResponsesOutput.argumentsString).getD ""
      toolDelta p "" <| book.modify p fun tool =>
        if args ≠ "" then { tool with arguments := args } else tool

def appendPending {α : Type} [DecidableEq α] (name : α) (delta : String)
    (pending : AList fun _ : α => String) : AList fun _ : α => String :=
  pending.insert name ((pending.lookup name).getD "" ++ delta)

def ToolBook.keepDelta (book : ToolBook) : ToolBook :=
  match event.outputIndex, nonBlank event.itemID with
  | some outputIndex, _ =>
    let pending := appendPending outputIndex event.delta book.pendingArgsByOutputIndex
    { book with pendingArgsByOutputIndex := pending }
  | none, some itemID =>
    let pending := appendPending itemID event.delta book.pendingArgsByItemID
    { book with pendingArgsByItemID := pending }
  | none, none => book

def toolArgumentsDelta :
    Emit.Program ToolBook ToolCallResponse := fun book =>
  if event.delta = "" then ([], book)
  else
    match book.findToolForEvent event with
    | some p =>
      toolDelta p event.delta <| book.modify p fun tool =>
        { tool with arguments := tool.arguments ++ event.delta }
    | none => ([], book.keepDelta event)

def flushPendingTool :
    Emit.Program ToolBook ToolCallResponse := fun book =>
  match book.findToolForEvent event with
  | some p => toolDelta p "" book
  | none =>
    match book.ensureFallbackToolForEvent event with
    | some (p, book) => toolDelta p "" book
    | none => ([], book)

/-! ### The end of the stream -/

def ToolKey.callID : ToolKey → String
  | .output index => "call_output_" ++ GoText.itoa index
  | .item id => id
  | .call id => "call:" ++ id

variable (key : ToolKey)

/-- What is kept under the key itself joins the arguments of its tool. -/
def ToolBook.drainKey (p : ℕ) (book : ToolBook) : ToolBook :=
  match key with
  | .output index =>
    { book.modify p fun tool => { tool with
        arguments := tool.arguments ++ (book.pendingArgsByOutputIndex.lookup index).getD "" } with
      pendingArgsByOutputIndex := book.pendingArgsByOutputIndex.erase index }
  | .item id =>
    { book.modify p fun tool => { tool with
        arguments := tool.arguments ++ (book.pendingArgsByItemID.lookup id).getD "" } with
      pendingArgsByItemID := book.pendingArgsByItemID.erase id }
  | .call _ => book

def flushKey : Emit.Program ToolBook ToolCallResponse := fun book =>
  let found :=
    match book.toolByKey.lookup key with
    | some p => (p, book)
    | none => book.newTool key key.callID
  toolDelta found.1 "" (found.2.drainKey key found.1)

/-- Every key with a tool, and every other key with pending arguments. -/
def ToolBook.flushKeys (book : ToolBook) : List ToolKey :=
  let pending := book.pendingArgsByOutputIndex.keys.map ToolKey.output ++
    book.pendingArgsByItemID.keys.map .item
  book.toolByKey.keys ++ pending.filter (· ∉ book.toolByKey.keys)

def flushAllPendingTools : Emit.Program ToolBook ToolCallResponse := fun book =>
  Emit.each flushKey (book.flushKeys.insertionSort fun a b => a.text ≤ b.text) book

end fragments

end WynthApi.Relay
