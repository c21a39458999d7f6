import WynthApi.Lib.GoText
import WynthApi.Lib.Json

/-!
# A Responses input as chat messages (oai_responses/to_oai_chat_req.go)

The items of an input become chat messages one after the other: a call is put on the last message if that is
the assistant's, and else on a new one without content; an output becomes a tool message.  `entries` reads the
calls, outputs and messages back from chat messages, in their order.

A `custom_tool_call_output` has no case of its own and is taken for a message of the user, so that its call id
and its output are lost (`input_kept_iff`).
-/

namespace WynthApi.Convert

open GoText List Json

/-! ### Chat messages -/

inductive ToolType
  | function
  | custom
  deriving DecidableEq

/-- A call; a custom one has its raw JSON. -/
structure ToolCallRequest where
  id : String
  type : ToolType
  (name arguments : String)
  custom : Option String := none
  deriving DecidableEq

/-- A message with content of type `C`; only a tool message has a `toolCallId`. -/
structure Message (C : Type) where
  role : String
  content : Option C := none
  name : Option String := none
  toolCallId : Option String := none
  toolCalls : List ToolCallRequest := []
  deriving DecidableEq

/-! ### Fields -/

section conversion

variable (k : Codec)

def interface2String : Json → String
  | .null => ""
  | .bool b => if b then "true" else "false"
  | .str s => s
  | v => k.format v

variable (item : Object)

/-- `strings.TrimSpace(kitutil.Interface2String(item[key]))` -/
def trimmed (key : String) : String := trimSpace (interface2String k (field item key))

inductive InputType
  | functionCall
  | functionCallOutput
  | customToolCall
  | customToolOutput
  | other
  deriving DecidableEq

/-- The constants `responsesInputType*`. -/
def inputType : InputType :=
  match trimmed k item "type" with
  | "function_call" => .functionCall
  | "function_call_output" => .functionCallOutput
  | "custom_tool_call" => .customToolCall
  | "custom_tool_call_output" => .customToolOutput
  | _ => .other

def responsesCallID : String :=
  if trimmed k item "call_id" ≠ "" then trimmed k item "call_id" else trimmed k item "id"

def stringOrJSON : Json → String
  | .null => ""
  | .str s => s
  | v => k.marshal v

def responsesArgumentsString : Json → String := stringOrJSON k

def responseToolOutputToChatContent (value : Json) : Json := .str (stringOrJSON k value)

/-- The longest start of at most `n` bytes. -/
def cut : ℕ → List Char → List Char
  | _, [] => []
  | n, c :: cs => if c.utf8Size ≤ n then c :: cut (n - c.utf8Size) cs else []

/- `sum` is the first four bytes of the SHA-256 sum of a text, in hexadecimal. -/
variable (sum : String → String)

def flattenResponsesToolName (space name : String) : String :=
  let full := space ++ "__" ++ name
  let suffix := "__" ++ sum full
  if full.utf8ByteSize ≤ 64 then full
  else String.ofList (cut (64 - suffix.utf8ByteSize) full.toList) ++ suffix

/-! ### Contents -/

def responsesPartPayload (key : String) : Json := (item.lookup key).getD (.obj (item.filter (·.1 ≠ "type")))

/-- The value under `key`, or else those of the named fields that the part has. -/
def partValue (key : String) (names : List String) : Json :=
  (item.lookup key).getD (.obj (if item.any (·.1 ∈ names) then item.filter (·.1 ∈ names) else item))

def responsesImagePartToChatImageURL : Json := partValue item "image_url" ["url", "file_id", "detail"]

def responsesFilePartToChatFile : Json := partValue item "file" ["file_id", "file_data", "filename", "file_url"]

def responsesVideoPartToChatVideoURL : Json :=
  let url (o : Object) (other : Json) : Json :=
    if interface2String k (field o "url") ≠ "" then .str (interface2String k (field o "url")) else other
  match item.lookup "video_url" with
  | some (.obj videoURL) => url videoURL (.obj videoURL)
  | some videoURL => videoURL
  | none => url item (responsesPartPayload item "video_url")

/-- A part for the chat, with its text if it has nothing but a text. -/
def chatPart : Json → Option String × Json
  | .obj part =>
    let typed (type key : String) (value : Json) : Json := .obj [("type", .str type), (key, value)]
    match trimmed k part "type" with
    | "input_text" | "output_text" | "text" =>
      let text := interface2String k (field part "text")
      (some text, typed "text" "text" (.str text))
    | "input_image" => (none, typed "image_url" "image_url" (responsesImagePartToChatImageURL part))
    | "input_file" => (none, typed "file" "file" (responsesFilePartToChatFile part))
    | "input_audio" => (none, typed "input_audio" "input_audio" (responsesPartPayload part "input_audio"))
    | "input_video" => (none, typed "video_url" "video_url" (responsesVideoPartToChatVideoURL k part))
    | _ => (none, .obj part)
  | rawPart => (none, rawPart)

def responsesContentPartsToChatContent (parts : List Json) : Json :=
  match (parts.map (chatPart k)).mapM Prod.fst with
  | some texts => .str (String.join texts)
  | none => .arr (parts.map fun part => (chatPart k part).2)

def responsesInputContentToChatContent : Json → Json
  | .null => .str ""
  | .arr parts => responsesContentPartsToChatContent k parts
  | content => content

/-! ### The conversion -/

def responsesFunctionCallItemToChatToolCall : Except String ToolCallRequest :=
  let name := trimmed k item "name"
  let space := trimmed k item "namespace"
  if name = "" then .error "function_call item is missing name"
  else .ok
    { id := responsesCallID k item
      type := .function
      name := if space ≠ "" then flattenResponsesToolName sum space name else name
      arguments := responsesArgumentsString k (field item "arguments") }

def responsesCustomToolCallItemToChatToolCall : ToolCallRequest where
  id := responsesCallID k item
  type := .custom
  name := trimmed k item "name"
  arguments := responsesArgumentsString k (field item "input")
  custom := some (k.marshal (.obj item))

variable (messages : List (Message Json))

def appendToolCallToLastAssistant (toolCall : ToolCallRequest) : List (Message Json) :=
  match messages.getLast? with
  | none => [{ role := "assistant", toolCalls := [toolCall] }]
  | some last =>
    if last.role ≠ "assistant" then messages ++ [{ role := "assistant", toolCalls := [toolCall] }]
    else messages.dropLast ++ [{ last with toolCalls := last.toolCalls ++ [toolCall] }]

def itemRole : String := if trimmed k item "role" = "" then "user" else trimmed k item "role"

def responsesInputItemToChatMessages : Except String (List (Message Json)) :=
  match inputType k item with
  | .functionCall =>
    (responsesFunctionCallItemToChatToolCall k item sum).map (appendToolCallToLastAssistant messages)
  | .customToolCall =>
    .ok (appendToolCallToLastAssistant messages (responsesCustomToolCallItemToChatToolCall k item))
  | .functionCallOutput =>
    .ok (messages ++ [{ role := "tool", toolCallId := some (trimmed k item "call_id"),
                        content := some (responseToolOutputToChatContent k (field item "output")) }])
  | _ =>
    .ok (messages ++ [{ role := itemRole k item,
                        content := some (responsesInputContentToChatContent k (field item "content")) }])

/-- The loop over an input array, after the message of the instructions. -/
def responsesRequestMessagesToChat (items : List Object) : Except String (List (Message Json)) :=
  items.foldlM (fun messages item => responsesInputItemToChatMessages k item sum messages) messages

/-! ### What the messages keep -/

inductive Entry
  | message (role : String)
  | call (role callId arguments : String)
  | output (role callId : String) (content : Json)

/-- What chat messages hold.  A message that was made for a call has no content. -/
def entries : List Entry :=
  messages.flatMap fun m =>
    (m.content.map fun content => m.toolCallId.elim (.message m.role) (.output m.role · content)).toList ++
      m.toolCalls.map fun c => .call m.role c.id c.arguments

/-- A string says itself, an absent value nothing, and any other its JSON. -/
def textOf : Json → String
  | .str s => s
  | .null => ""
  | v => k.marshal v

/-- The first of `call_id` and `id` that is not blank. -/
def callId : String := ((["call_id", "id"].map (trimmed k item)).find? (· ≠ "")).getD ""

/-- What an item is, by its fields. -/
def entry : Entry :=
  match inputType k item with
  | .functionCall => .call "assistant" (callId k item) (textOf k (field item "arguments"))
  | .customToolCall => .call "assistant" (callId k item) (textOf k (field item "input"))
  | .functionCallOutput | .customToolOutput =>
    .output "tool" (trimmed k item "call_id") (.str (textOf k (field item "output")))
  | _ => .message (itemRole k item)

/-- The item is not an output of a custom tool, and a function call has a name. -/
def Known : Prop :=
  inputType k item ≠ .customToolOutput ∧ (inputType k item = .functionCall → trimmed k item "name" ≠ "")

theorem responsesCallID_eq : responsesCallID k item = callId k item := by
  unfold responsesCallID callId
  by_cases h : trimmed k item "call_id" = ""
  · by_cases h' : trimmed k item "id" = "" <;> simp [h, h']
  · simp [h]

theorem stringOrJSON_eq (v : Json) : stringOrJSON k v = textOf k v := by
  cases v <;> rfl

variable {k sum}

theorem entries_append (messages messages' : List (Message Json)) :
    entries (messages ++ messages') = entries messages ++ entries messages' :=
  flatMap_append

variable (messages : List (Message Json))

theorem entries_appendOutput (role callId : String) (content : Json) :
    entries (messages ++ [{ role, toolCallId := some callId, content := some content }]) =
      entries messages ++ [.output role callId content] :=
  entries_append _ _

theorem entries_appendMessage (role : String) (content : Json) :
    entries (messages ++ [{ role, content := some content }]) = entries messages ++ [.message role] :=
  entries_append _ _

theorem entries_appendToolCall (c : ToolCallRequest) :
    entries (appendToolCallToLastAssistant messages c) =
      entries messages ++ [.call "assistant" c.id c.arguments] := by
  rw [appendToolCallToLastAssistant]
  cases hlast : messages.getLast? with
  | none =>
    rw [getLast?_eq_none_iff.mp hlast]
    rfl
  | some last =>
    show entries (if last.role ≠ "assistant" then _ else _) = _
    split_ifs with hrole
    · rw [entries_append]
      rfl
    · -- the call comes after those that the message had
      rw [← dropLast_append_getLast? last hlast, entries_append, dropLast_concat, entries_append, append_assoc]
      simp [entries, not_not.mp hrole]

/-- **One item** adds one entry, which is its own exactly if it is converted as what it is. -/
theorem item_spec (item : Object) :
    (∃ e, responsesInputItemToChatMessages k item sum messages = .error e ∧ ¬ Known k item) ∨
    ∃ next e, responsesInputItemToChatMessages k item sum messages = .ok next ∧
      entries next = entries messages ++ [e] ∧ (e = entry k item ↔ Known k item) := by
  unfold responsesInputItemToChatMessages entry Known
  simp only [← responsesCallID_eq, ← stringOrJSON_eq]
  cases htype : inputType k item with
  | functionCall =>
    rw [responsesFunctionCallItemToChatToolCall]
    by_cases hname : trimmed k item "name" = ""
    · rw [if_pos hname]
      exact .inl ⟨_, rfl, fun h => h.2 rfl hname⟩
    · rw [if_neg hname]
      refine .inr ⟨_, _, rfl, entries_appendToolCall _ _, ?_⟩
      simp [responsesArgumentsString, hname]
  | customToolCall =>
    refine .inr ⟨_, _, rfl, entries_appendToolCall _ _, ?_⟩
    simp [responsesCustomToolCallItemToChatToolCall, responsesArgumentsString]
  | functionCallOutput => exact .inr ⟨_, _, rfl, entries_appendOutput _ _ _ _, iff_of_true rfl ⟨nofun, nofun⟩⟩
  | other => exact .inr ⟨_, _, rfl, entries_appendMessage _ _ _, iff_of_true rfl ⟨nofun, nofun⟩⟩
  | customToolOutput => exact .inr ⟨_, _, rfl, entries_appendMessage _ _ _, iff_of_false nofun fun h => h.1 rfl⟩

theorem items_spec (items : List Object) :
    (∃ e, responsesRequestMessagesToChat k sum messages items = .error e ∧ ¬ ∀ item ∈ items, Known k item) ∨
    ∃ next es, responsesRequestMessagesToChat k sum messages items = .ok next ∧
      entries next = entries messages ++ es ∧ (es = items.map (entry k) ↔ ∀ item ∈ items, Known k item) := by
  induction items generalizing messages with
  | nil => exact .inr ⟨messages, [], rfl, (append_nil _).symm, by simp⟩
  | cons item items ih =>
    simp only [responsesRequestMessagesToChat, foldlM_cons, forall_mem_cons] at ih ⊢
    rcases @item_spec k sum messages item with ⟨e, herror, hknown⟩ | ⟨next, e, hok, hentries, hknown⟩
    · rw [herror]
      exact .inl ⟨e, rfl, fun h => hknown h.1⟩
    · rw [hok]
      rcases ih next with ⟨e', herror, hknown'⟩ | ⟨next', es, hok', hentries', hknown'⟩
      · exact .inl ⟨e', herror, fun h => hknown' h.2⟩
      · refine .inr ⟨next', e :: es, hok', ?_, ?_⟩
        · rw [hentries', hentries, append_assoc, singleton_append]
        · rw [map_cons, cons_eq_cons, hknown, hknown']

end conversion

/-- **Calls and outputs are kept**, each once and in order with the messages, exactly if no item is an output of
a custom tool and no function call lacks a name. -/
theorem input_kept_iff (k : Codec) (sum : String → String) (messages : List (Message Json)) (items : List Object) :
    (∃ next, responsesRequestMessagesToChat k sum messages items = .ok next ∧
      entries next = entries messages ++ items.map (entry k)) ↔ ∀ item ∈ items, Known k item := by
  rcases @items_spec k sum messages items with ⟨e, herror, hknown⟩ | ⟨next, es, hok, hentries, hknown⟩
  · rw [herror]
    exact iff_of_false (fun ⟨_, h, _⟩ => nomatch h) hknown
  · rw [← hknown, hok]
    constructor
    · rintro ⟨_, ⟨⟩, h⟩
      exact List.append_cancel_left (hentries.symm.trans h)
    · rintro rfl
      exact ⟨next, rfl, hentries⟩

def exampleCodec : Codec where
  marshal
    | .null => "null"
    | _ => "{}"
  marshal_ne_empty v := by cases v <;> simp
  unmarshal _ := none
  format _ := ""

/-- An output of a custom tool becomes a message of the user. -/
theorem custom_output_lost :
    let item : Object := [("type", .str "custom_tool_call_output"), ("call_id", .str "c"), ("output", .str "done")]
    responsesRequestMessagesToChat exampleCodec id [] [item] = .ok [{ role := "user", content := some (.str "") }] ∧
      entry exampleCodec item = .output "tool" "c" (.str "done") := by
  exact ⟨rfl, rfl⟩

end WynthApi.Convert
