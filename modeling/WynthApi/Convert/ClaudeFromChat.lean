import WynthApi.Convert.ChatFromClaude

/-!
# A chat request as a Claude request (oai_chat/to_claude_messages_req.go)

`OpenAIChatRequestToClaudeMessages` first merges neighbours of one role whose contents are strings, and then builds
the Claude messages.  Two type assertions on values of the client are not checked, and an empty role is set to `user`
only in the request, not in the copy that is converted (`claude_roles_iff`).
-/

namespace WynthApi.Convert

open List Json

/-! ### The request -/

inductive Role
  | empty
  | system
  | user
  | assistant
  | tool
  deriving DecidableEq

/-- `toolCalls` is `none` if the field is absent. -/
structure ChatMessage where
  role : Role
  content : Option ChatContent := none
  toolCallId : String := ""
  toolCalls : Option (List ToolCallRequest) := none
  deriving DecidableEq

def isStr : Json → Bool
  | .str _ => true
  | _ => false

/-- `params["type"].(string)` panics: the parameters are an object, whose `type` is neither `null` nor a string. -/
def typePanics : Json → Bool
  | .obj params =>
    match field params "type" with
    | .null => false
    | type => !isStr type
  | _ => false

/-- `item.(string)` panics for an element of `stop`. -/
def stopPanics : Json → Bool
  | .arr items => items.any (!isStr ·)
  | _ => false

structure ChatRequest where
  /-- The parameters of each tool. -/
  tools : List Json := []
  reasoningError : Option String := none
  stop : Json := .null
  messages : List ChatMessage
  maxTokens : Option ℕ := some 1024

structure ClaudeTurn where
  role : Role
  content : String ⊕ List ClaudeMediaMessage

/-! ### Merging -/

def ChatMessage.string? (m : ChatMessage) : Option String :=
  match m.content with
  | some (.string s) => some s
  | _ => none

def trimQuotes (s : String) : String :=
  String.ofList ((s.toList.dropWhile (· = '"')).reverse.dropWhile (· = '"')).reverse

def merged? (last m : ChatMessage) : Option String :=
  if last.role = m.role ∧ last.role ≠ .tool then
    match last.string?, m.string? with
    | some s, some t => some (trimQuotes (s ++ " " ++ t))
    | _, _ => none
  else none

def orDots : Option ChatContent → ChatContent
  | none => .string "..."
  | some content => if content = .string "" then .string "..." else content

def fmtMessage (m : ChatMessage) (content : Option ChatContent) : ChatMessage where
  role := m.role
  content := some (orDots content)
  toolCallId := if m.role = .tool then m.toolCallId else ""
  toolCalls := if m.role = .assistant then m.toolCalls else none

/-- The messages so far stand newest first. -/
def formatStep : List ChatMessage → ChatMessage → List ChatMessage
  | [], m => [fmtMessage m m.content]
  | last :: rest, m =>
    match merged? last m with
    | some text => fmtMessage m (some (.string text)) :: rest
    | none => fmtMessage m m.content :: last :: rest

def formatMessages (messages : List ChatMessage) : List ChatMessage := (messages.foldl formatStep []).reverse

/-! ### Claude messages -/

section claude

/- `resolve` is the base64 data of a part, if it has a source, `parts` the JSON value of parts, and `input` that of
arguments. -/
variable (resolve : String → Except String (Option (String × String)))
  (parts : List MediaContent → Json) (input : String → Json)

variable (m : ChatMessage)

def toolResult : ClaudeMediaMessage :=
  .toolResult m.toolCallId "" <| match m.content with
    | some (.media ps) => parts ps
    | some (.string s) => .str s
    | none => .str ""

def mediaBlocks : List MediaContent → Except String (List ClaudeMediaMessage)
  | [] => .ok []
  | .text s :: rest => do
    let blocks ← mediaBlocks rest
    return if s ≠ "" then .text s :: blocks else blocks
  | .imageUrl url :: rest => do
    let source ← resolve url
    let blocks ← mediaBlocks rest
    return (source.map fun (mimeType, data) => .image mimeType data).toList ++ blocks

def ChatMessage.parseContent : List MediaContent :=
  match m.content with
  | none => []
  | some (.string s) => [.text s]
  | some (.media ps) => ps

def toolUses : List ClaudeMediaMessage :=
  (m.toolCalls.getD []).map fun c => .toolUse c.id c.name (input c.arguments)

def claudeContent : Except String (String ⊕ List ClaudeMediaMessage) :=
  match m.string?, m.toolCalls with
  | some s, none => .ok (.inl (if s = "" then "..." else s))
  | _, _ => do
    let blocks ← mediaBlocks resolve m.parseContent
    return .inr (blocks ++ toolUses input m)

/-- The Claude messages so far, newest first, with a message of the user before the first other one. -/
def opened (claudeMessages : List ClaudeTurn) (m : ChatMessage) : List ClaudeTurn :=
  if claudeMessages = [] ∧ m.role ≠ .user then [⟨.user, .inr [.text "..."]⟩] else claudeMessages

def addToolResult (block : ClaudeMediaMessage) : List ClaudeTurn → List ClaudeTurn
  | ⟨.user, content⟩ :: rest => ⟨.user, .inr (content.elim (fun s => [.text s]) id ++ [block])⟩ :: rest
  | claudeMessages => ⟨.user, .inr [block]⟩ :: claudeMessages

def convertStep (claudeMessages : List ClaudeTurn) (m : ChatMessage) : Except String (List ClaudeTurn) :=
  match m.role with
  | .system => .ok claudeMessages
  | .tool => .ok (addToolResult (toolResult parts m) (opened claudeMessages m))
  | role => (claudeContent resolve input m).map fun content => ⟨role, content⟩ :: opened claudeMessages m

inductive Outcome (α : Type)
  | panics
  | error (text : String)
  | ok (a : α)

def errMissingMaxTokens : String :=
  "claude messages request requires max_tokens: set max_tokens on the request or configure " ++
    "Options.Claude.DefaultMaxTokens"

def openAIChatRequestToClaudeMessages (r : ChatRequest) : Outcome (List ClaudeTurn) :=
  if r.tools.any typePanics then .panics
  else match r.reasoningError with
    | some text => .error text
    | none =>
      if stopPanics r.stop then .panics
      else match (formatMessages r.messages).foldlM (convertStep resolve parts input) [] with
        | .error text => .error ("get file data failed: " ++ text)
        | .ok claudeMessages =>
          if r.maxTokens.isSome then .ok claudeMessages.reverse else .error errMissingMaxTokens

/-! ### Roles -/

def turnRoles (roles : List Role) : Role → List Role
  | .system => roles
  | .user => .user :: roles
  | .tool => if roles.head? = some .user then roles else .user :: roles
  | role => role :: if roles = [] then [.user] else roles

variable {resolve parts input} {l l' : List ClaudeTurn} {m : ChatMessage}

theorem opened_roles (l : List ClaudeTurn) (m : ChatMessage) :
    (opened l m).map (·.role) = if l.map (·.role) = [] ∧ m.role ≠ .user then [.user] else l.map (·.role) := by
  unfold opened
  by_cases h : l = [] ∧ m.role ≠ .user
  · rw [if_pos h, if_pos (by simpa using h)]
    rfl
  · rw [if_neg h, if_neg (by simpa using h)]

theorem addToolResult_roles (block : ClaudeMediaMessage) (l : List ClaudeTurn) :
    (addToolResult block l).map (·.role) =
      if (l.map (·.role)).head? = some .user then l.map (·.role) else .user :: l.map (·.role) := by
  rcases l with _ | ⟨⟨role, content⟩, rest⟩
  · rfl
  · cases role <;> rfl

theorem convertStep_roles (h : convertStep resolve parts input l m = .ok l') :
    l'.map (·.role) = turnRoles (l.map (·.role)) m.role := by
  unfold convertStep at h
  cases hr : m.role <;> simp only [hr] at h
  case system =>
    cases h
    rfl
  case tool =>
    cases h
    rw [addToolResult_roles, opened_roles, hr]
    cases l.map (·.role) <;> rfl
  all_goals
    cases hc : claudeContent resolve input m <;> simp only [hc, Except.map] at h
    · cases h
    · cases h
      rw [map_cons, opened_roles, hr]
      simp [turnRoles]

theorem foldlM_roles (ms : List ChatMessage) (h : ms.foldlM (convertStep resolve parts input) l = .ok l') :
    l'.map (·.role) = (ms.map (·.role)).foldl turnRoles (l.map (·.role)) := by
  induction ms generalizing l with
  | nil =>
    cases h
    rfl
  | cons m ms ih =>
    rw [foldlM_cons] at h
    cases hs : convertStep resolve parts input l m with
    | error e => rw [hs] at h; cases h
    | ok l₁ =>
      rw [hs] at h
      rw [ih h, convertStep_roles hs]
      rfl

end claude

/-- The roles of Claude messages, newest first, after messages of the roles `seen`. -/
structure Turns (seen roles : List Role) : Prop where
  known : ∀ r ∈ roles, r = .user ∨ r = .assistant ∨ r = .empty
  first : ∀ r ∈ roles.getLast?, r = .user
  empty : .empty ∈ roles ↔ .empty ∈ seen

theorem Turns.nil : Turns [] [] := ⟨by simp, by simp, by simp⟩

variable {seen roles : List Role}

theorem Turns.turn (h : Turns seen roles) (r : Role) : Turns (seen ++ [r]) (turnRoles roles r) := by
  obtain ⟨hk, hf, he⟩ := h
  cases r <;> rcases roles with _ | ⟨r, roles⟩ <;> constructor <;> grind [turnRoles]

theorem turns_foldl (rs : List Role) (h : Turns seen roles) : Turns (seen ++ rs) (rs.foldl turnRoles roles) := by
  induction rs generalizing seen roles with
  | nil => simpa using h
  | cons r rs ih => simpa using ih (h.turn r)

theorem mem_roles_formatStep (out : List ChatMessage) (m : ChatMessage) (r : Role) :
    r ∈ (formatStep out m).map (·.role) ↔ r ∈ out.map (·.role) ∨ r = m.role := by
  rcases out with _ | ⟨last, rest⟩
  · simp [formatStep, fmtMessage]
  · cases hm : merged? last m with
    | none => simp [formatStep, hm, fmtMessage, or_comm]
    | some text =>
      have same : last.role = m.role := by
        unfold merged? at hm
        grind
      simp only [formatStep, hm, fmtMessage, map_cons, mem_cons, same]
      tauto

theorem mem_roles_formatMessages (ms : List ChatMessage) (r : Role) :
    r ∈ (formatMessages ms).map (·.role) ↔ r ∈ ms.map (·.role) := by
  have run : ∀ out : List ChatMessage, r ∈ (ms.foldl formatStep out).map (·.role) ↔
      r ∈ out.map (·.role) ∨ r ∈ ms.map (·.role) := by
    induction ms with
    | nil => simp
    | cons m ms ih =>
      intro out
      rw [foldl_cons, ih, mem_roles_formatStep, map_cons, mem_cons, or_assoc]
  rw [formatMessages, map_reverse, mem_reverse, run]
  simp

section claude

variable (resolve : String → Except String (Option (String × String)))
  (parts : List MediaContent → Json) (input : String → Json) (r : ChatRequest)

theorem convert_panics_iff : openAIChatRequestToClaudeMessages resolve parts input r = .panics ↔
      r.tools.any typePanics ∨ r.reasoningError = none ∧ stopPanics r.stop := by
  unfold openAIChatRequestToClaudeMessages
  grind

theorem convert_ok {messages : List ClaudeTurn}
    (h : openAIChatRequestToClaudeMessages resolve parts input r = .ok messages) :
    (formatMessages r.messages).foldlM (convertStep resolve parts input) [] = .ok messages.reverse := by
  unfold openAIChatRequestToClaudeMessages at h
  grind

/-- **A chat request as a Claude request**: the conversion panics exactly if the `type` of the parameters of a tool
is not a string, or else an element of `stop` is none and `reasoning` is valid.  In a request that it returns, all
roles are `user` or `assistant` and the first is `user`, exactly if no message came with an empty role. -/
theorem claude_roles_iff : (openAIChatRequestToClaudeMessages resolve parts input r = .panics ↔
      r.tools.any typePanics ∨ r.reasoningError = none ∧ stopPanics r.stop) ∧
    ∀ messages, openAIChatRequestToClaudeMessages resolve parts input r = .ok messages →
      (((∀ t ∈ messages, t.role = .user ∨ t.role = .assistant) ∧ ∀ t ∈ messages.head?, t.role = .user) ↔
        ∀ m ∈ r.messages, m.role ≠ .empty) := by
  refine ⟨convert_panics_iff resolve parts input r, fun messages h => ?_⟩
  have roles := foldlM_roles _ (convert_ok resolve parts input r h)
  obtain ⟨known, first, empty⟩ := turns_foldl ((formatMessages r.messages).map (·.role)) .nil
  rw [map_nil] at roles
  rw [← roles] at known first empty
  have hempty := empty.trans (mem_roles_formatMessages r.messages .empty)
  simp only [map_reverse, mem_reverse, getLast?_reverse, mem_map] at known first hempty
  constructor
  · rintro ⟨valid, -⟩ m hm he
    obtain ⟨t, ht, hr⟩ := hempty.mpr ⟨m, hm, he⟩
    rcases valid t ht with h | h <;> rw [hr] at h <;> cases h
  · intro none
    refine ⟨fun t ht => ?_, fun t ht => first t.role (by simpa using ⟨t, ht, rfl⟩)⟩
    rcases known t.role ⟨t, ht, rfl⟩ with h | h | h
    · exact .inl h
    · exact .inr h
    · obtain ⟨m, hm, he⟩ := hempty.mp ⟨t, ht, h⟩
      exact absurd he (none m hm)

/-- A `stop` with a number panics, and an empty role is sent as it is. -/
theorem unchecked_stop_and_role :
    openAIChatRequestToClaudeMessages (fun _ => .ok none) (fun _ => .null) .str
      { stop := .arr [.num "1"], messages := [] } = .panics ∧
    openAIChatRequestToClaudeMessages (fun _ => .ok none) (fun _ => .null) .str
      { messages := [⟨.empty, some (.string "hi"), "", none⟩] } =
      .ok [⟨.user, .inr [.text "..."]⟩, ⟨.empty, .inl "hi"⟩] := by
  exact ⟨rfl, rfl⟩

end claude

end WynthApi.Convert
