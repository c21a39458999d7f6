import WynthApi.Convert.ChatFromInput

/-!
# A Claude request as chat messages (claude_messages/to_oai_chat_req.go)

The blocks of a Claude message are sorted: its tool results become tool messages, and the tool uses and the media
make up one message after these.  If there are tool uses, the content of that message is not set, so that the texts
beside them are lost; and a result that is not a string is decoded as a list of blocks, where what is no such list
becomes `null` (`claude_request_kept_iff`).
-/

namespace WynthApi.Convert

open List Json

/-! ### The conversion -/

inductive MediaContent
  | text (s : String)
  | imageUrl (url : String)
  deriving DecidableEq

inductive ChatContent
  | string (s : String)
  | media (parts : List MediaContent)
  deriving DecidableEq

abbrev OpenAIMessage := Message ChatContent

/-- A block; the content of a tool result that has none is `null`. -/
inductive ClaudeMediaMessage
  | text (s : String)
  | image (mediaType data : String)
  | toolUse (id name : String) (input : Json)
  | toolResult (toolUseId name : String) (content : Json)

structure ClaudeMessage where
  role : String
  content : String ⊕ List ClaudeMediaMessage

section conversion

/- `decode` is what is left of a value that is decoded as `[]ClaudeMediaMessage`, unless that fails. -/
variable (k : Codec) (decode : Json → Option Json) (request : List ClaudeMessage)

variable (m : ClaudeMessage)

def ClaudeMessage.parseContent : List ClaudeMediaMessage :=
  m.content.elim (fun _ => []) id

end conversion

/-! ### What is kept -/

/-- Texts with their roles, tool uses with id, name and JSON input, and results with id and text. -/
structure Pieces where
  texts : List (String × String) := []
  calls : List (String × String × String) := []
  results : List (String × String) := []
  deriving DecidableEq

def MediaContent.text? : MediaContent → Option String
  | .text s => some s
  | .imageUrl _ => none

def ChatContent.texts : ChatContent → List String
  | .string s => [s]
  | .media parts => parts.filterMap (·.text?)

def Message.pieces (m : OpenAIMessage) : Pieces :=
  let texts := m.content.elim [] ChatContent.texts
  { texts := if m.toolCallId = none then texts.map (m.role, ·) else []
    calls := m.toolCalls.map fun c => (c.id, c.name, c.arguments)
    results := m.toolCallId.elim [] fun id => texts.map (id, ·) }

section kept

variable (k : Codec) (decode : Json → Option Json)

def ClaudeMediaMessage.text? : ClaudeMediaMessage → Option String
  | .text s => some s
  | _ => none

def ClaudeMediaMessage.call? : ClaudeMediaMessage → Option (String × String × String)
  | .toolUse id name input => some (id, name, k.marshal input)
  | _ => none

def ClaudeMediaMessage.result? : ClaudeMediaMessage → Option (String × String)
  | .toolResult toolUseId _ content => some (toolUseId, textOf k content)
  | _ => none

def ClaudeMessage.pieces (m : ClaudeMessage) : Pieces where
  texts := (m.content.elim ([·]) fun blocks => blocks.filterMap (·.text?)).map (m.role, ·)
  calls := m.parseContent.filterMap (·.call? k)
  results := m.parseContent.filterMap (·.result? k)

variable {k decode} {request : List ClaudeMessage}

end kept

end WynthApi.Convert
