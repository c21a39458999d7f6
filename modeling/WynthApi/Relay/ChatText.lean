import WynthApi.Relay.ChatFromResponses

/-!
# The text and the reasoning of a converted Responses stream

Of the converter's state only four flags bear on the text (`TextState`), and on these the converter does, chunk by
chunk, what `textStep` does (`speaks_chatStep`).

While a response is replayed, the flag that text was sent is set by the first message item with text, and the items
after it are passed over; the same goes for reasoning.
-/

namespace WynthApi.Relay

open Emit List ChatCompletionsStreamResponse Simulates

/-! ### The converter on the flags -/

structure TextState where
  finalized : Bool := false
  sentText : Bool := false
  sentReasoning : Bool := false
  needsBreak : Bool := false
  deriving DecidableEq, Repr

inductive TextPiece
  | text (text : String)
  | reasoning (text : String)
  | finish
  deriving DecidableEq, Repr

abbrev TextProgram := Program TextState TextPiece

variable (text : String)

def sayText : TextProgram := fun s =>
  if text = "" then ([], s) else ([.text text], { s with sentText := true })

def sayReasoning : TextProgram := fun s =>
  if text = "" then ([], s)
  else
    ([.reasoning (withBreak s.needsBreak text)], { s with needsBreak := false, sentReasoning := true })

def replay (output : ResponsesOutput) : TextProgram := fun s =>
  match output.type with
  | .message => if s.sentText then ([], s) else sayText output.outputText s
  | .reasoning => if s.sentReasoning then ([], s) else sayReasoning output.reasoningText s
  | _ => ([], s)

def sayFinish : TextProgram := fun s =>
  if s.finalized then ([], s) else ([.finish], { s with finalized := true })

section simulation

variable {Usage : Type}

def textStep (event : ResponsesStreamResponse Usage) : TextProgram :=
  match event.type with
  | .reasoningSummaryDelta | .reasoningTextDelta => sayReasoning event.delta
  | .reasoningSummaryDone | .reasoningTextDone =>
    update fun s => { s with needsBreak := s.needsBreak || s.sentReasoning }
  | .outputTextDelta => sayText event.delta
  | .completed | .done | .incomplete =>
    andThen (each replay (outputsOf event.response)) sayFinish
  | _ => skip

def textState (s : ResponsesToChatStreamState Usage) : TextState where
  finalized := s.finalized
  sentText := s.hasSentText
  sentReasoning := s.hasSentReasoning
  needsBreak := s.needsReasoningSummaryBreak

def textPieces (chunk : ChatCompletionsStreamResponse Usage) : List TextPiece :=
  (if chunk.content = "" then [] else [.text chunk.content]) ++
  (if chunk.reasoning = "" then [] else [.reasoning chunk.reasoning]) ++
  (if chunk.finishes then [.finish] else [])

abbrev Speaks (program : ChatProgram Usage) (spoken : TextProgram) : Prop :=
  Simulates textState textPieces program spoken

theorem textPieces_makeChunk (s : ResponsesToChatStreamState Usage) (delta : ChoiceDelta)
    (reason : Option String) : textPieces (makeChunk s delta reason) =
      (if delta.getContentString = "" then [] else [.text delta.getContentString]) ++
      (if delta.getReasoningContent = "" then [] else [.reasoning delta.getReasoningContent]) ++
      (if reason.isSome then [.finish] else []) := by
  simp [textPieces, makeChunk, content, reasoning, finishes, String.join]

theorem speaks_ensureStart : Speaks (ensureStart : ChatProgram Usage) skip := by
  intro s
  unfold ensureStart
  split_ifs with h
  · exact ⟨rfl, rfl⟩
  · refine ⟨?_, rfl⟩
    rw [flatMap_singleton, textPieces_makeChunk]
    rfl

theorem send_text (delta : ChoiceDelta) (s : ResponsesToChatStreamState Usage) :
    (send delta s).1.flatMap textPieces =
      (if delta.getContentString = "" then [] else [.text delta.getContentString]) ++
      (if delta.getReasoningContent = "" then [] else [.reasoning delta.getReasoningContent]) ∧
    textState (send delta s).2 = textState s := by
  obtain ⟨hstart, hstate⟩ := speaks_ensureStart s
  refine ⟨?_, hstate⟩
  unfold send
  rw [andThen_apply, flatMap_append, hstart]
  simp [textPieces_makeChunk]

variable (delta : String)

theorem speaks_textDelta : Speaks (textDelta delta : ChatProgram Usage) (sayText delta) := by
  intro s
  unfold textDelta sayText
  by_cases h : delta = ""
  · rw [if_pos h, if_pos h]
    exact ⟨rfl, rfl⟩
  · rw [if_neg h, if_neg h]
    obtain ⟨htext, hstate⟩ := send_text { content := some delta } { s with hasSentText := true }
    refine ⟨?_, hstate⟩
    rw [andThen_apply, update_apply, nil_append, htext]
    simp [ChoiceDelta.getContentString, ChoiceDelta.getReasoningContent, h]

theorem withBreak_ne_empty {needsBreak : Bool} {delta : String} (h : delta ≠ "") : withBreak needsBreak delta ≠ "" := by
  unfold withBreak
  split_ifs <;> simp [h]

theorem speaks_reasoningDelta : Speaks (reasoningDelta delta : ChatProgram Usage) (sayReasoning delta) := by
  intro s
  unfold reasoningDelta sayReasoning
  by_cases h : delta = ""
  · rw [if_pos h, if_pos h]
    exact ⟨rfl, rfl⟩
  · rw [if_neg h, if_neg h]
    obtain ⟨htext, hstate⟩ := send_text
      { reasoningContent := some (withBreak s.needsReasoningSummaryBreak delta) } s
    have hne : withBreak s.needsReasoningSummaryBreak delta ≠ "" := withBreak_ne_empty h
    refine ⟨?_, ?_⟩
    · rw [andThen_apply, update_apply, append_nil, htext]
      simp [ChoiceDelta.getContentString, ChoiceDelta.getReasoningContent, hne, textState]
    · rw [andThen_apply, update_apply]
      have hflags := congrArg (fun t : TextState => (t.finalized, t.sentText)) hstate
      simp only [textState, Prod.mk.injEq] at hflags
      simp [textState, reasoningSent, hflags]

theorem speaks_sendTools (program : Program ToolBook ToolCallResponse) :
    Speaks (sendTools program : ChatProgram Usage) skip := by
  have hfragment : ∀ fragment, Speaks (sendFragment fragment : ChatProgram Usage) skip := by
    intro fragment s
    obtain ⟨htext, hstate⟩ := send_text { toolCalls := [fragment] } s
    refine ⟨?_, hstate⟩
    unfold sendFragment
    rw [andThen_apply, update_apply, append_nil, htext]
    rfl
  intro s
  have hall : Speaks (each sendFragment (program s.book).1 : ChatProgram Usage) skip :=
    each_skip fun fragment _ => hfragment fragment
  exact hall { s with book := (program s.book).2 }

theorem speaks_terminalOutput (output : ResponsesOutput) :
    Speaks (terminalOutput output : ChatProgram Usage) (replay output) := by
  intro s
  unfold terminalOutput replay
  cases output.type with
  | message =>
    by_cases h : s.hasSentText = true
    · simp [h, textState]
    · simpa [h, textState] using speaks_textDelta output.outputText s
  | reasoning =>
    by_cases h : s.hasSentReasoning = true
    · simp [h, textState]
    · simpa [h, textState] using speaks_reasoningDelta output.reasoningText s
  | functionCall | customToolCall =>
    have h := speaks_sendTools (toolItem ({ item := some output } : ResponsesStreamResponse Usage)) s
    simp only [ResponsesOutputType.isTool, if_true]
    exact h
  | toolSearchCall => exact ⟨rfl, rfl⟩
  | other => exact ⟨rfl, rfl⟩

variable (response : Option (OpenAIResponsesResponse Usage))

theorem outputsOf_ensureIncompleteResponse :
    outputsOf (some (ensureIncompleteResponse response)) = outputsOf response := by
  cases response with
  | none => rfl
  | some response =>
    cases hstatus : response.status <;> simp [ensureIncompleteResponse, outputsOf, hstatus]

theorem speaks_finalize : Speaks (finalize response : ChatProgram Usage) sayFinish := by
  intro s
  unfold finalize sayFinish
  by_cases h : s.finalized = true
  · simp [h, textState]
  · rw [if_neg h, if_neg (by simpa [textState] using h)]
    have hend : Speaks (write fun s => makeChunk s {} (some (finishReasonOf response s)) ::
        usageChunks s : ChatProgram Usage) (write fun _ => [.finish]) := by
      refine write fun s => ?_
      have husage : (usageChunks s).flatMap textPieces = [] := by
        unfold usageChunks
        split <;> rfl
      rw [flatMap_cons, husage, textPieces_makeChunk]
      rfl
    exact ((speaks_sendTools flushAllPendingTools).andThen (speaks_ensureStart.andThen hend))
      { s with finalized := true }

variable (usageFrom : Usage → Usage)

theorem speaks_terminal (response : Option (OpenAIResponsesResponse Usage)) :
    Speaks (terminal usageFrom response : ChatProgram Usage)
      (andThen (each replay (outputsOf response)) sayFinish) := by
  have hmetadata : Speaks (update (applyResponseMetadata usageFrom response) : ChatProgram Usage) skip := by
    refine hidden fun s => ?_
    cases response <;> rfl
  have hreplay : Speaks (terminalOutputChunks response : ChatProgram Usage) (each replay (outputsOf response)) := by
    exact each_map fun output _ => speaks_terminalOutput output
  exact hmetadata.andThen (hreplay.andThen (speaks_finalize response))

/-- **Simulation**: on the flags and the text the converter does what `textStep` does. -/
theorem speaks_chatStep (event : ResponsesStreamResponse Usage) :
    Speaks (chatStep usageFrom event) (textStep event) := by
  unfold chatStep responsesStreamEventToChatChunks textStep
  cases event.type with
  | reasoningSummaryDelta | reasoningTextDelta => exact speaks_reasoningDelta event.delta
  | reasoningSummaryDone | reasoningTextDone => exact update fun _ => rfl
  | outputTextDelta => exact speaks_textDelta event.delta
  | completed | done => exact speaks_terminal usageFrom event.response
  | incomplete =>
    have h := speaks_terminal usageFrom (some (ensureIncompleteResponse event.response))
    rw [outputsOf_ensureIncompleteResponse] at h
    exact h
  | created =>
    have hmetadata : Speaks (update (applyResponseMetadata usageFrom event.response) : ChatProgram Usage) skip := by
      refine hidden fun s => ?_
      cases event.response <;> rfl
    exact hmetadata.andThen speaks_ensureStart
  | outputItemAdded | outputItemDone =>
    show Speaks (itemEvent event) skip
    unfold itemEvent
    cases event.item with
    | none => exact skip
    | some item =>
      by_cases h : item.type.isTool = true
      · simp only [h, if_true]
        exact speaks_sendTools _
      · simp only [h]
        exact skip
  | functionArgsDelta | functionArgsDone | customToolInputDelta | customToolInputDone =>
    exact speaks_sendTools _
  | failed | error | outputTextDone | other => exact skip

end simulation

/-! ### Texts up to paragraph breaks -/

/-- The pieces make up the text, but for paragraph breaks put in front of some of them. -/
def UpToBreaks (pieces : List String) : Prop :=
  ∃ parts, List.Forall₂ (fun part piece => piece = part ∨ piece = "\n" ++ part ∨ piece = "\n\n" ++ part)
    parts pieces ∧ String.join parts = text

namespace UpToBreaks

theorem nil : UpToBreaks "" [] := ⟨[], List.Forall₂.nil, rfl⟩

theorem single (text : String) : UpToBreaks text [text] :=
  ⟨[text], List.Forall₂.cons (.inl rfl) List.Forall₂.nil, by simp⟩

theorem withBreak (needsBreak : Bool) (text : String) : UpToBreaks text [Relay.withBreak needsBreak text] := by
  refine ⟨[text], List.Forall₂.cons ?_ List.Forall₂.nil, by simp⟩
  unfold Relay.withBreak
  split_ifs <;> simp

theorem append {text text' : String} {pieces pieces' : List String} (h : UpToBreaks text pieces)
    (h' : UpToBreaks text' pieces') : UpToBreaks (text ++ text') (pieces ++ pieces') := by
  obtain ⟨parts, hparts, rfl⟩ := h
  obtain ⟨parts', hparts', rfl⟩ := h'
  exact ⟨parts ++ parts', rel_append hparts hparts', String.join_append⟩

variable {pieces : List String} {text : String}

theorem length_le (h : UpToBreaks text pieces) : text.length ≤ (String.join pieces).length := by
  obtain ⟨parts, hparts, rfl⟩ := h
  induction hparts with
  | nil => exact le_refl _
  | @cons part piece parts pieces hpart hparts ih =>
    have hlength : part.length ≤ piece.length := by
      rcases hpart with rfl | rfl | rfl <;> simp
    rw [String.join_cons, String.join_cons, String.length_append, String.length_append]
    omega

theorem of_filter (h : UpToBreaks text (pieces.filter (· ≠ ""))) : UpToBreaks text pieces := by
  induction pieces generalizing text with
  | nil => exact h
  | cons piece pieces ih =>
    by_cases hpiece : piece = ""
    · subst hpiece
      rw [filter_cons_of_neg (by simp)] at h
      have hcons := (single "").append (ih h)
      rwa [String.empty_append] at hcons
    · rw [filter_cons_of_pos (by simpa using hpiece)] at h
      obtain ⟨parts, hparts, rfl⟩ := h
      cases hparts with
      | @cons part _ parts _ hpart hparts =>
        obtain ⟨parts', hparts', hjoin⟩ := ih ⟨parts, hparts, rfl⟩
        refine ⟨part :: parts', List.Forall₂.cons hpart hparts', ?_⟩
        rw [String.join_cons, String.join_cons, hjoin]

end UpToBreaks

variable (texts : List String)

def firstText : Option String := texts.find? (· ≠ "")

def AtMostOne : Prop := (texts.filter (· ≠ "")).length ≤ 1
  deriving Decidable

variable {texts : List String}

theorem join_eq_empty_iff : String.join texts = "" ↔ texts.filter (· ≠ "") = [] := by
  induction texts with
  | nil => simp
  | cons text texts ih => simp [String.join_cons, ih]

theorem join_filter : String.join (texts.filter (· ≠ "")) = String.join texts := by
  induction texts with
  | nil => rfl
  | cons text texts ih =>
    by_cases h : text = ""
    · rw [filter_cons_of_neg (by simpa using h), ih, String.join_cons, h, String.empty_append]
    · rw [filter_cons_of_pos (by simpa using h), String.join_cons, String.join_cons, ih]

theorem firstText_cons_empty : firstText ("" :: texts) = firstText texts :=
  find?_cons_of_neg (by simp)

theorem firstText_cons {text : String} (texts : List String) (h : text ≠ "") :
    firstText (text :: texts) = some text := find?_cons_of_pos (by simpa using h)

theorem firstText_length : (String.join texts).length ≤ ((firstText texts).getD "").length ↔ AtMostOne texts := by
  induction texts with
  | nil => simp [firstText, AtMostOne]
  | cons text texts ih =>
    by_cases h : text = ""
    · subst h
      rw [firstText_cons_empty, String.join_cons, String.empty_append, ih]
      simp [AtMostOne]
    · have hrest : (String.join texts).length ≤ 0 ↔ texts.filter (· ≠ "") = [] := by
        rw [Nat.le_zero, String.length_eq_zero_iff, join_eq_empty_iff]
      rw [firstText_cons texts h, String.join_cons, String.length_append, Option.getD_some]
      unfold AtMostOne
      rw [filter_cons_of_pos (by simpa using h), length_cons]
      have hlength := @List.length_eq_zero_iff _ (texts.filter (· ≠ ""))
      constructor
      · intro hle
        rw [hlength.mpr (hrest.mp (by omega))]
      · intro hle
        have := hrest.mpr (hlength.mp (by omega))
        omega

theorem firstText_eq_join : (firstText texts).getD "" = String.join texts ↔ AtMostOne texts := by
  rw [← firstText_length]
  constructor
  · intro h
    rw [h]
  · intro hle
    induction texts with
    | nil => rfl
    | cons text texts ih =>
      by_cases h : text = ""
      · subst h
        rw [firstText_cons_empty, String.join_cons, String.empty_append] at hle ⊢
        exact ih hle
      · rw [firstText_cons texts h, String.join_cons, Option.getD_some] at hle ⊢
        rw [String.length_append] at hle
        have hnil : (String.join texts).length = 0 := by omega
        rw [String.length_eq_zero_iff.mp hnil, String.append_empty]

/-! ### What the events say -/

section events

variable {Usage : Type}

def ResponsesEventType.isReasoningDelta : ResponsesEventType → Bool
  | .reasoningSummaryDelta => true
  | .reasoningTextDelta => true
  | _ => false

variable (events : List (ResponsesStreamResponse Usage))

def streamedText : String :=
  String.join ((events.filter fun e => e.type = .outputTextDelta).map ResponsesStreamResponse.delta)

def streamedReasoning : String :=
  String.join ((events.filter fun e => e.type.isReasoningDelta).map ResponsesStreamResponse.delta)

variable (event : ResponsesStreamResponse Usage)

def messageTexts : List String :=
  ((outputsOf event.response).filter fun o => o.type = .message).map ResponsesOutput.outputText

def reasoningTexts : List String :=
  ((outputsOf event.response).filter fun o => o.type = .reasoning).map ResponsesOutput.reasoningText

/-- What was streamed, or else the texts of the terminal response, all of them in their order. -/
def orElse (streamed : String) (texts : List String) : String :=
  if streamed ≠ "" then streamed else String.join texts

def TextPreserved (last : ResponsesStreamResponse Usage)
    (chunks : List (ChatCompletionsStreamResponse Usage)) : Prop :=
  String.join (chunks.map ChatCompletionsStreamResponse.content) =
    orElse (streamedText events) (messageTexts last) ∧
  UpToBreaks (orElse (streamedReasoning events) (reasoningTexts last))
    (chunks.map ChatCompletionsStreamResponse.reasoning) ∧
  (chunks.filter ChatCompletionsStreamResponse.finishes).length = 1

def Empty : Prop :=
  (∀ text ∈ messageTexts event, text = "") ∧ ∀ text ∈ reasoningTexts event, text = ""
  deriving Decidable

/-- The terminal response has to supply at most one message item with text, and at most one reasoning
item. -/
def Supplies (last : ResponsesStreamResponse Usage) :
    Prop :=
  (streamedText events = "" → AtMostOne (messageTexts last)) ∧
  (streamedReasoning events = "" → AtMostOne (reasoningTexts last))

instance (events : List (ResponsesStreamResponse Usage)) (last : ResponsesStreamResponse Usage) :
    Decidable (Supplies events last) :=
  inferInstanceAs (Decidable (_ ∧ _))

/-! ### Pieces and chunks -/

variable (pieces : List TextPiece)

def spokenTexts : List String :=
  pieces.filterMap fun
    | .text text => some text
    | _ => none

def spokenReasoning : List String :=
  pieces.filterMap fun
    | .reasoning text => some text
    | _ => none

theorem spokenTexts_append (pieces pieces' : List TextPiece) :
    spokenTexts (pieces ++ pieces') = spokenTexts pieces ++ spokenTexts pieces' :=
  filterMap_append

theorem spokenReasoning_append (pieces pieces' : List TextPiece) :
    spokenReasoning (pieces ++ pieces') = spokenReasoning pieces ++ spokenReasoning pieces' :=
  filterMap_append

variable (chunks : List (ChatCompletionsStreamResponse Usage))

theorem join_content : String.join (chunks.map content) = String.join (spokenTexts (chunks.flatMap textPieces)) := by
  induction chunks with
  | nil => rfl
  | cons chunk chunks ih =>
    have hchunk : chunk.content = String.join (spokenTexts (textPieces chunk)) := by
      unfold textPieces
      split_ifs with h <;> simp [spokenTexts, h]
    rw [map_cons, String.join_cons, ih, flatMap_cons, spokenTexts_append, String.join_append, ← hchunk]

theorem filter_reasoning : (chunks.map reasoning).filter (· ≠ "") = spokenReasoning (chunks.flatMap textPieces) := by
  induction chunks with
  | nil => rfl
  | cons chunk chunks ih =>
    have hchunk : [chunk.reasoning].filter (· ≠ "") = spokenReasoning (textPieces chunk) := by
      unfold textPieces
      by_cases h : chunk.reasoning = "" <;> split_ifs <;> simp [spokenReasoning, h]
    rw [map_cons, flatMap_cons, spokenReasoning_append, ← ih, ← hchunk, ← filter_append, singleton_append]

theorem count_finish : (chunks.filter finishes).length = (chunks.flatMap textPieces).count .finish := by
  induction chunks with
  | nil => rfl
  | cons chunk chunks ih =>
    rw [filter_cons, flatMap_cons, count_append, ← ih]
    unfold textPieces
    split_ifs <;> simp <;> omega

/-! ### The events before the last one -/

theorem streamedText_concat (events : List (ResponsesStreamResponse Usage))
    (event : ResponsesStreamResponse Usage) : streamedText (events ++ [event]) =
      streamedText events ++ if event.type = .outputTextDelta then event.delta else "" := by
  unfold streamedText
  rw [filter_append, map_append, String.join_append]
  split_ifs with h <;> simp [h]

theorem streamedReasoning_concat (events : List (ResponsesStreamResponse Usage))
    (event : ResponsesStreamResponse Usage) : streamedReasoning (events ++ [event]) =
      streamedReasoning events ++ if event.type.isReasoningDelta then event.delta else "" := by
  unfold streamedReasoning
  rw [filter_append, map_append, String.join_append]
  split_ifs with h <;> simp [h]

structure Spoken
    (s : TextState) : Prop where
  text : String.join (spokenTexts pieces) = streamedText events
  sentText : s.sentText = true ↔ streamedText events ≠ ""
  reasoning : UpToBreaks (streamedReasoning events) (spokenReasoning pieces)
  sentReasoning : s.sentReasoning = true ↔ streamedReasoning events ≠ ""
  silent : s.sentReasoning = false → s.needsBreak = false ∧ spokenReasoning pieces = []
  finished : pieces.count .finish = if s.finalized then 1 else 0

variable {pieces : List TextPiece} {events : List (ResponsesStreamResponse Usage)} {s : TextState}
  {event : ResponsesStreamResponse Usage}

theorem Spoken.quiet {pieces new : List TextPiece} {s' : TextState} (h : Spoken events pieces s)
    (htext : (if event.type = .outputTextDelta then event.delta else "") = "")
    (hreasoning : (if event.type.isReasoningDelta then event.delta else "") = "")
    (hpieces : spokenTexts new = [] ∧ spokenReasoning new = [])
    (hflags : s'.sentText = s.sentText ∧ s'.sentReasoning = s.sentReasoning)
    (hbreak : s'.sentReasoning = false → s.needsBreak = false → s'.needsBreak = false)
    (hfinish : (pieces ++ new).count .finish = if s'.finalized then 1 else 0) :
    Spoken (events ++ [event]) (pieces ++ new) s' := by
  refine ⟨?_, ?_, ?_, ?_, ?_, hfinish⟩
  · rw [spokenTexts_append, hpieces.1, append_nil, streamedText_concat, htext, String.append_empty]
    exact h.text
  · rw [hflags.1, streamedText_concat, htext, String.append_empty]
    exact h.sentText
  · rw [spokenReasoning_append, hpieces.2, append_nil, streamedReasoning_concat, hreasoning,
      String.append_empty]
    exact h.reasoning
  · rw [hflags.2, streamedReasoning_concat, hreasoning, String.append_empty]
    exact h.sentReasoning
  · intro hsent
    obtain ⟨hneeds, hnil⟩ := h.silent (hflags.2 ▸ hsent)
    refine ⟨hbreak hsent hneeds, ?_⟩
    rw [spokenReasoning_append, hpieces.2, hnil, append_nil]

theorem spoken_sayText (h : Spoken events pieces s) (htype : event.type = .outputTextDelta) :
    Spoken (events ++ [event]) (pieces ++ (sayText event.delta s).1) (sayText event.delta s).2 := by
  unfold sayText
  split_ifs with hdelta
  · refine h.quiet ?_ ?_ ⟨rfl, rfl⟩ ⟨rfl, rfl⟩ (fun _ hbreak => hbreak) ?_
    · rw [if_pos htype, hdelta]
    · simp [htype, ResponsesEventType.isReasoningDelta]
    · rw [append_nil]
      exact h.finished
  · have hreasoning : streamedReasoning (events ++ [event]) = streamedReasoning events := by
      simp [streamedReasoning_concat, htype, ResponsesEventType.isReasoningDelta]
    have hspoken : spokenReasoning (pieces ++ [.text event.delta]) = spokenReasoning pieces := by
      simp [spokenReasoning]
    refine ⟨?_, ?_, ?_, ?_, ?_, ?_⟩
    · rw [spokenTexts_append, String.join_append, h.text, streamedText_concat, if_pos htype]
      simp [spokenTexts]
    · simp [streamedText_concat, htype, hdelta]
    · rw [hreasoning, hspoken]
      exact h.reasoning
    · rw [hreasoning]
      exact h.sentReasoning
    · rw [hspoken]
      exact h.silent
    · rw [count_append, h.finished]
      rfl

theorem spoken_sayReasoning (h : Spoken events pieces s) (htype : event.type.isReasoningDelta = true) :
    Spoken (events ++ [event]) (pieces ++ (sayReasoning event.delta s).1) (sayReasoning event.delta s).2 := by
  have hother : event.type ≠ .outputTextDelta := by
    intro heq
    rw [heq] at htype
    cases htype
  unfold sayReasoning
  split_ifs with hdelta
  · refine h.quiet ?_ ?_ ⟨rfl, rfl⟩ ⟨rfl, rfl⟩ (fun _ hbreak => hbreak) ?_
    · rw [if_neg hother]
    · rw [if_pos htype, hdelta]
    · rw [append_nil]
      exact h.finished
  · have htext : streamedText (events ++ [event]) = streamedText events := by
      simp [streamedText_concat, hother]
    refine ⟨?_, ?_, ?_, ?_, ?_, ?_⟩
    · rw [spokenTexts_append, String.join_append, h.text, htext]
      simp [spokenTexts]
    · rw [htext]
      exact h.sentText
    · rw [spokenReasoning_append, streamedReasoning_concat, if_pos htype]
      exact h.reasoning.append (UpToBreaks.withBreak s.needsBreak event.delta)
    · simp [streamedReasoning_concat, htype, hdelta]
    · intro hsent
      cases hsent
    · rw [count_append, h.finished]
      rfl

theorem each_replay_empty {outputs : List ResponsesOutput}
    (htext : ∀ o ∈ outputs, o.type = .message → o.outputText = "")
    (hreasoning : ∀ o ∈ outputs, o.type = .reasoning → o.reasoningText = "") (s : TextState) :
    each replay outputs s = ([], s) := by
  induction outputs with
  | nil => rfl
  | cons o outputs ih =>
    have hfirst : replay o s = ([], s) := by
      have ht := htext o mem_cons_self
      have hr := hreasoning o mem_cons_self
      unfold replay
      cases htype : o.type with
      | message => simp [sayText, ht htype]
      | reasoning => simp [sayReasoning, hr htype]
      | functionCall | customToolCall | toolSearchCall | other => rfl
    rw [each_cons, hfirst]
    exact ih (fun o ho => htext o (mem_cons_of_mem _ ho)) (fun o ho => hreasoning o (mem_cons_of_mem _ ho))

theorem Empty.each_replay (h : Empty event) (s : TextState) : each replay (outputsOf event.response) s = ([], s) := by
  refine each_replay_empty (fun o ho htype => ?_) (fun o ho htype => ?_) s
  · exact h.1 _ (mem_map_of_mem (mem_filter.mpr ⟨ho, by simpa using htype⟩))
  · exact h.2 _ (mem_map_of_mem (mem_filter.mpr ⟨ho, by simpa using htype⟩))

theorem count_sayFinish (h : pieces.count .finish = if s.finalized then 1 else 0) :
    (pieces ++ (sayFinish s).1).count .finish = 1 ∧ (sayFinish s).2.finalized = true := by
  unfold sayFinish
  by_cases hfinal : s.finalized = true
  · rw [if_pos hfinal] at h ⊢
    exact ⟨by rw [append_nil, h], hfinal⟩
  · rw [if_neg hfinal] at h ⊢
    exact ⟨by rw [count_append, h]; rfl, rfl⟩

theorem spoken_textStep (h : Spoken events pieces s) (hempty : event.type.isTerminal = true → Empty event) :
    Spoken (events ++ [event]) (pieces ++ (textStep event s).1) (textStep event s).2 := by
  unfold textStep
  cases htype : event.type with
  | outputTextDelta => exact spoken_sayText h htype
  | reasoningSummaryDelta | reasoningTextDelta => exact spoken_sayReasoning h (by rw [htype]; rfl)
  | reasoningSummaryDone | reasoningTextDone =>
    refine h.quiet (by simp [htype]) (by simp [htype, ResponsesEventType.isReasoningDelta]) ⟨rfl, rfl⟩
      ⟨rfl, rfl⟩ (fun hsent hneeds => ?_) ?_
    · simpa [hneeds] using hsent
    · show (pieces ++ []).count _ = _
      rw [append_nil]
      exact h.finished
  | completed | done | incomplete =>
    have hreplay := (hempty (by rw [htype]; rfl)).each_replay s
    obtain ⟨hcount, hfinal⟩ := count_sayFinish h.finished
    simp only [andThen_apply, hreplay, nil_append]
    refine h.quiet (by simp [htype]) (by simp [htype, ResponsesEventType.isReasoningDelta]) ?_ ?_ ?_ ?_
    · unfold sayFinish
      split_ifs <;> exact ⟨rfl, rfl⟩
    · unfold sayFinish
      split_ifs <;> exact ⟨rfl, rfl⟩
    · unfold sayFinish
      split_ifs <;> exact fun _ hneeds => hneeds
    · rw [hcount, hfinal]
      rfl
  | created | failed | error | outputTextDone | outputItemAdded | outputItemDone | functionArgsDelta
  | functionArgsDone | customToolInputDelta | customToolInputDone | other =>
    refine h.quiet (by simp [htype]) (by simp [htype, ResponsesEventType.isReasoningDelta]) ⟨rfl, rfl⟩
      ⟨rfl, rfl⟩ (fun _ hneeds => hneeds) ?_
    show (pieces ++ []).count _ = _
    rw [append_nil]
    exact h.finished

/-! ### The terminal event -/

variable (outputs : List ResponsesOutput)

/-- The loop over the items sends the first text of a message item and then passes the others over: it
sets the flag that it tests. -/
theorem spokenTexts_replay (s : TextState) : spokenTexts (each replay outputs s).1 = if s.sentText then [] else
      (firstText ((outputs.filter fun o => o.type = .message).map ResponsesOutput.outputText)).toList := by
  induction outputs generalizing s with
  | nil => simp [spokenTexts, firstText]
  | cons o outputs ih =>
    rw [each_cons, spokenTexts_append, ih, filter_cons]
    unfold replay
    cases htype : o.type with
    | message =>
      by_cases hsent : s.sentText = true
      · simp [hsent, spokenTexts]
      · by_cases htext : o.outputText = ""
        · simp [hsent, htext, sayText, firstText_cons_empty, spokenTexts]
        · simp [hsent, htext, sayText, firstText_cons, spokenTexts]
    | reasoning =>
      simp only [sayReasoning]
      split_ifs <;> simp_all [spokenTexts]
    | functionCall | customToolCall | toolSearchCall | other => simp [spokenTexts]

theorem replay_break (o : ResponsesOutput) (hbreak : s.sentReasoning = false → s.needsBreak = false) :
    (replay o s).2.sentReasoning = false → (replay o s).2.needsBreak = false := by
  unfold replay sayText sayReasoning
  split
  · split_ifs <;> exact hbreak
  · split_ifs <;> simp_all
  · exact hbreak

theorem spokenReasoning_replay (s : TextState) (hbreak : s.sentReasoning = false → s.needsBreak = false) :
    spokenReasoning (each replay outputs s).1 = if s.sentReasoning then [] else (firstText
        ((outputs.filter fun o => o.type = .reasoning).map ResponsesOutput.reasoningText)).toList := by
  induction outputs generalizing s with
  | nil => simp [spokenReasoning, firstText]
  | cons o outputs ih =>
    rw [each_cons, spokenReasoning_append, ih _ (replay_break o hbreak), filter_cons]
    unfold replay
    cases htype : o.type with
    | reasoning =>
      by_cases hsent : s.sentReasoning = true
      · simp [hsent, spokenReasoning]
      · have hneeds := hbreak (by simpa using hsent)
        by_cases htext : o.reasoningText = ""
        · simp [hsent, htext, sayReasoning, firstText_cons_empty, spokenReasoning]
        · simp [hsent, htext, sayReasoning, firstText_cons, spokenReasoning, hneeds, withBreak]
    | message =>
      simp only [sayText]
      split_ifs <;> simp_all [spokenReasoning]
    | functionCall | customToolCall | toolSearchCall | other => simp [spokenReasoning]

theorem count_replay (s : TextState) :
    (each replay outputs s).1.count .finish = 0 ∧ (each replay outputs s).2.finalized = s.finalized := by
  induction outputs generalizing s with
  | nil => exact ⟨rfl, rfl⟩
  | cons o outputs ih =>
    have hfirst : (replay o s).1.count .finish = 0 ∧ (replay o s).2.finalized = s.finalized := by
      unfold replay sayText sayReasoning
      split
      · split_ifs <;> exact ⟨rfl, rfl⟩
      · split_ifs <;> exact ⟨rfl, rfl⟩
      · exact ⟨rfl, rfl⟩
    obtain ⟨hcount, hfinal⟩ := ih (replay o s).2
    rw [each_cons, count_append, hfirst.1, hcount]
    exact ⟨rfl, hfinal.trans hfirst.2⟩

/-- **Terminal event**: what the whole stream says, from what it said before. -/
theorem spoken_terminal {last : ResponsesStreamResponse Usage} (h : Spoken events pieces s)
    (hlast : last.type.isTerminal = true) : String.join (spokenTexts (pieces ++ (textStep last s).1)) =
      (if streamedText events ≠ "" then streamedText events else (firstText (messageTexts last)).getD "") ∧
    spokenReasoning (pieces ++ (textStep last s).1) = (if streamedReasoning events ≠ "" then spokenReasoning pieces
        else (firstText (reasoningTexts last)).toList) ∧
    (pieces ++ (textStep last s).1).count .finish = 1 := by
  have hstep : textStep last = andThen (each replay (outputsOf last.response)) sayFinish := by
    unfold textStep
    cases htype : last.type <;> rw [htype] at hlast <;> first | rfl | cases hlast
  have hquiet : ∀ s, spokenTexts (sayFinish s).1 = [] ∧ spokenReasoning (sayFinish s).1 = [] := by
    intro s
    unfold sayFinish
    split_ifs <;> exact ⟨rfl, rfl⟩
  have hbreak : s.sentReasoning = false → s.needsBreak = false := fun hsent => (h.silent hsent).1
  have htexts := spokenTexts_replay (outputsOf last.response) s
  have hreasoning := spokenReasoning_replay (outputsOf last.response) s hbreak
  obtain ⟨hcount, hfinal⟩ := count_replay (outputsOf last.response) s
  rw [hstep, andThen_apply]
  refine ⟨?_, ?_, ?_⟩
  · rw [spokenTexts_append, spokenTexts_append, (hquiet _).1, htexts, append_nil,
      String.join_append, h.text]
    by_cases hsent : s.sentText = true
    · rw [if_pos hsent, if_pos (h.sentText.mp hsent)]
      exact String.append_empty
    · have hnone : streamedText events = "" := by
        by_contra hne
        exact hsent (h.sentText.mpr hne)
      rw [if_neg hsent, if_neg (by simpa using hnone), hnone, String.empty_append]
      show String.join (firstText (messageTexts last)).toList = _
      cases firstText (messageTexts last) <;> simp
  · rw [spokenReasoning_append, spokenReasoning_append, (hquiet _).2, hreasoning, append_nil]
    by_cases hsent : s.sentReasoning = true
    · rw [if_pos hsent, if_pos (h.sentReasoning.mp hsent), append_nil]
    · have hnone : streamedReasoning events = "" := by
        by_contra hne
        exact hsent (h.sentReasoning.mpr hne)
      rw [if_neg hsent, if_neg (by simpa using hnone), (h.silent (by simpa using hsent)).2, nil_append]
      rfl
  · have hbefore : (pieces ++ (each replay (outputsOf last.response) s).1).count .finish =
        if (each replay (outputsOf last.response) s).2.finalized then 1 else 0 := by
      rw [count_append, hcount, hfinal, Nat.add_zero]
      exact h.finished
    rw [← append_assoc]
    exact (count_sayFinish hbefore).1

theorem spoken_start : Spoken ([] : List (ResponsesStreamResponse Usage)) [] {} :=
  ⟨rfl, by simp [streamedText], UpToBreaks.nil, by simp [streamedReasoning], fun _ => ⟨rfl, rfl⟩, rfl⟩

/-- **Text**: a stream that ends in a terminal event, with nothing to replay in an earlier one, keeps the
text and the reasoning exactly if the terminal response need not supply two message items with text or
two reasoning items. -/
theorem chatStream_text_iff (usageFrom : Usage → Usage) (model : String) (created : ℤ)
    (includeUsage : Bool) (usage : Usage) {events : List (ResponsesStreamResponse Usage)}
    {last : ResponsesStreamResponse Usage} (hlast : last.type.isTerminal = true)
    (hearly : ∀ event ∈ events, event.type.isTerminal = true → Empty event) :
    TextPreserved events last (chatStream usageFrom (events ++ [last])
      (newResponsesToChatStreamState model created includeUsage usage)).1 ↔ Supplies events last := by
  have hsimulates : Speaks (chatStream usageFrom (events ++ [last]))
      (each textStep (events ++ [last])) :=
    Simulates.each_map fun event _ => speaks_chatStep usageFrom event
  have hpieces := (hsimulates (newResponsesToChatStreamState model created includeUsage usage)).1
  generalize (chatStream usageFrom (events ++ [last])
    (newResponsesToChatStreamState model created includeUsage usage)).1 = chunks at hpieces
  rw [each_append] at hpieces
  have hbefore : Spoken events (each textStep events {}).1 (each textStep events {}).2 := by
    have halong : StepSys.Along (fun pre event => pre ++ [event])
        (fun _ event => event.type.isTerminal = true → Empty event) [] events :=
      StepSys.along_of_forall hearly []
    exact each_trace (I := Spoken) (fun _ _ _ _ h hempty => spoken_textStep h hempty)
      spoken_start halong
  obtain ⟨htext, hreasoning, hfinish⟩ := spoken_terminal hbefore hlast
  have hchunks : chunks.flatMap textPieces = (each textStep events {}).1 ++
      (textStep last (each textStep events {}).2).1 := by
    rw [hpieces]
    show _ ++ (_ ++ []) = _
    rw [List.append_nil]
    rfl
  rw [← hchunks] at htext hreasoning hfinish
  have hcontent : String.join (chunks.map ChatCompletionsStreamResponse.content) =
      orElse (streamedText events) (messageTexts last) ↔
        (streamedText events = "" → AtMostOne (messageTexts last)) := by
    rw [join_content, htext]
    unfold orElse
    by_cases hstreamed : streamedText events = ""
    · simp only [hstreamed, ne_eq, not_true_eq_false, if_false, forall_const]
      exact firstText_eq_join
    · simp [hstreamed]
  have hthinking : UpToBreaks (orElse (streamedReasoning events) (reasoningTexts last))
      (chunks.map ChatCompletionsStreamResponse.reasoning) ↔
        (streamedReasoning events = "" → AtMostOne (reasoningTexts last)) := by
    unfold orElse
    by_cases hstreamed : streamedReasoning events = ""
    · simp only [hstreamed, ne_eq, not_true_eq_false, if_false, forall_const] at hreasoning ⊢
      constructor
      · intro h
        have hjoin : String.join (chunks.map ChatCompletionsStreamResponse.reasoning) =
            (firstText (reasoningTexts last)).getD "" := by
          rw [← join_filter, filter_reasoning, hreasoning]
          cases firstText (reasoningTexts last) <;> simp
        have hlength := h.length_le
        rw [hjoin] at hlength
        exact firstText_length.mp hlength
      · intro hone
        apply UpToBreaks.of_filter
        rw [filter_reasoning, hreasoning, ← firstText_eq_join.mpr hone]
        cases firstText (reasoningTexts last) with
        | none => exact UpToBreaks.nil
        | some text => exact UpToBreaks.single text
    · simp only [hstreamed, ne_eq, not_false_eq_true, if_true, false_imp_iff, iff_true] at hreasoning ⊢
      apply UpToBreaks.of_filter
      rw [filter_reasoning, hreasoning]
      exact hbefore.reasoning
  unfold TextPreserved Supplies
  rw [hcontent, hthinking, count_finish, hfinish]
  simp

def twoMessages : ResponsesStreamResponse Unit where
  type := .completed
  response := some { output :=
    [{ type := .message, content := [⟨.outputText, "a"⟩] },
      { type := .message, content := [⟨.outputText, "b"⟩] }] }

def paragraphs : List (ResponsesStreamResponse Unit) :=
  [{ type := .created }, { type := .reasoningSummaryDelta, delta := "x" }, { type := .reasoningSummaryDone },
    { type := .reasoningSummaryDelta, delta := "y" }]

def answer : ResponsesStreamResponse Unit where
  type := .incomplete
  response := some { output :=
    [{ type := .reasoning, content := [⟨.summaryText, "y"⟩] },
      { type := .message, content := [⟨.outputText, "a"⟩, ⟨.outputText, "b"⟩] }] }

theorem paragraphs_text : TextPreserved paragraphs answer
    (chatStream id (paragraphs ++ [answer]) (newResponsesToChatStreamState "m" 0 true ())).1 :=
  (chatStream_text_iff id "m" 0 true () (by decide) (by decide)).mpr (by decide)

/-- Of two message items that only the terminal response brings, the second one is lost. -/
theorem twoMessages_loses_text : twoMessages.type.isTerminal = true ∧ ¬ TextPreserved [] twoMessages
    (chatStream id [twoMessages] (newResponsesToChatStreamState "m" 0 true ())).1 :=
  ⟨rfl, fun h => absurd h.1 (by decide)⟩

end events

end WynthApi.Relay
