import WynthApi.Relay.ClaudeValid

/-!
# What the converted stream delivers of the content

A stream has channels: its text, its reasoning and the arguments of every tool call.  `carried` is what a chunk
carries on a channel, `sent` what the Claude events deliver on it.  A tool call is recognised by the place of its
block in the open series of tool blocks, counted from the last block that was stopped.

`stepSent` says for each chunk what is forwarded; what is left out shortens the stream.
-/

namespace WynthApi.Relay

open Emit String

inductive Channel
  | text
  | thinking
  | tool (index : ℤ)
  deriving DecidableEq, Repr

section channels

variable {Usage ClaudeUsage : Type}

/-! ### What is carried and what is sent -/

def argumentsOf (k : ℤ) (fragments : List (ToolCallResponse × ℕ)) : String :=
  String.join (fragments.map fun fragment =>
    if fragment.1.offset fragment.2 = k then fragment.1.function.arguments else "")

def carriedBy (delta : ChoiceDelta) : Channel → String
  | .text => delta.getContentString
  | .thinking => delta.getReasoningContent
  | .tool k => argumentsOf k delta.toolCalls.zipIdx

def carried (response : ChatCompletionsStreamResponse Usage) (channel : Channel) : String :=
  String.join (response.choices.map fun choice => carriedBy choice.delta channel)

variable (channel : Channel)

/-- What an event delivers on a channel; `base` is the first block of the open series. -/
def piece (base : ℤ) : ClaudeResponse ClaudeUsage → String
  | .contentBlockDelta _ (.text text) => if channel = .text then text else ""
  | .contentBlockDelta _ (.thinking thinking) => if channel = .thinking then thinking else ""
  | .contentBlockDelta index (.inputJson partialJson) =>
    if channel = .tool (index - base) then partialJson else ""
  | _ => ""

def baseAfter (base : ℤ) : ClaudeResponse ClaudeUsage → ℤ
  | .contentBlockStop index => index + 1
  | _ => base

def sent (channel : Channel) : ℤ → List (ClaudeResponse ClaudeUsage) → String
  | _, [] => ""
  | base, e :: es => piece channel base e ++ sent channel (baseAfter base e) es

def lastBase (base : ℤ) (es : List (ClaudeResponse ClaudeUsage)) : ℤ := es.foldl baseAfter base

def Delivers (buildClaudeUsage : Usage → ClaudeUsage) (estimatePromptTokens : ℤ)
    (arrivals : List (Arrival Usage)) (stored : Option Usage) : Prop :=
  ∀ channel, sent channel 0 (claudeStream buildClaudeUsage estimatePromptTokens arrivals stored) =
    String.join (arrivals.map fun arrival => carried arrival.response channel)

/-! ### The condition -/

def Silent (delta : ChoiceDelta) : Prop :=
  delta.getContentString = "" ∧ delta.getReasoningContent = "" ∧
    ∀ toolCall ∈ delta.toolCalls, toolCall.function.arguments = ""

/-- The first chunk forwards arguments for call 0 only, and from its first fragment only. -/
def FirstComplete (delta : ChoiceDelta) : Prop :=
  (delta.getReasoningContent = "" ∨ delta.getContentString = "") ∧
    (∀ toolCall ∈ delta.toolCalls.head?,
      toolCall.function.arguments = "" ∨ toolCall.offset 0 = 0) ∧
    ∀ toolCall ∈ delta.toolCalls.tail, toolCall.function.arguments = ""

def LaterComplete (delta : ChoiceDelta) : Prop :=
  (delta.getReasoningContent = "" ∨ delta.getContentString = "") ∧
    (delta.toolCalls ≠ [] → delta.getReasoningContent = "" ∧ delta.getContentString = "")

/-- The chunk's choice is converted: the message is not ended, and the finish reason does not wait for
a usage. -/
def Converted (info : Info Usage) (response : ChatCompletionsStreamResponse Usage)
    (choice : Choice) : Prop :=
  info.claudeConvertInfo.done = false ∧
    (info.sendResponseCount = 0 ∨ choice.finish = none ∨ response.usage.isSome = true)
  deriving Decidable

/-- The chunk carries no more than the converter forwards of it. -/
def Forwarded (info : Info Usage) (arrival : Arrival Usage) : Prop :=
  ∀ choice ∈ arrival.response.choices.head?,
    if Converted info arrival.response choice then
      if info.sendResponseCount = 0 then FirstComplete choice.delta else LaterComplete choice.delta
    else Silent choice.delta

instance (info : Info Usage) (arrival : Arrival Usage) : Decidable (Forwarded info arrival) := by
  unfold Forwarded FirstComplete LaterComplete Silent
  infer_instance

/-! ### What each chunk forwards -/

def firstSent (delta : ChoiceDelta) : Channel → String
  | .text => if delta.getReasoningContent ≠ "" then "" else delta.getContentString
  | .thinking => delta.getReasoningContent
  | .tool k =>
    match delta.toolCalls with
    | [] => ""
    | toolCall :: _ => if k = 0 then toolCall.function.arguments else ""

def laterSent (delta : ChoiceDelta) (channel : Channel) : String :=
  if delta.toolCalls ≠ [] then
    match channel with
    | .tool k => argumentsOf k delta.toolCalls.zipIdx
    | _ => ""
  else if delta.getReasoningContent ≠ "" then
    if channel = .thinking then delta.getReasoningContent else ""
  else if channel = .text then delta.getContentString else ""

def stepSent (info : Info Usage) (response : ChatCompletionsStreamResponse Usage)
    (channel : Channel) : String :=
  match response.choices with
  | [] => ""
  | choice :: _ =>
    if Converted info response choice then
      if info.sendResponseCount = 0 then firstSent choice.delta channel
      else laterSent choice.delta channel
    else ""

/-! ### The events of each piece of the conversion -/

theorem sent_append (base : ℤ) (es fs : List (ClaudeResponse ClaudeUsage)) :
    sent channel base (es ++ fs) = sent channel base es ++ sent channel (lastBase base es) fs := by
  induction es generalizing base with
  | nil => simp [sent, lastBase]
  | cons e es ih =>
    rw [List.cons_append, sent, sent, ih, append_assoc]
    rfl

theorem lastBase_append (base : ℤ) (es fs : List (ClaudeResponse ClaudeUsage)) :
    lastBase base (es ++ fs) = lastBase (lastBase base es) fs := List.foldl_append

/-- The first block of the open series, or the block that the next series would start with. -/
def baseOf (state : ClaudeConvertInfo Usage) : ℤ :=
  if state.lastMessagesType = .tools then state.toolCallBaseIndex else state.index

theorem sent_stopOpenBlocks (base : ℤ) (state : ClaudeConvertInfo Usage) :
    sent channel base (stopOpenBlocks state : List (ClaudeResponse ClaudeUsage)) = "" := by
  have hstops : ∀ (is : List ℤ) (base : ℤ), sent channel base
      (is.map fun i => (generateStopBlock i : ClaudeResponse ClaudeUsage)) = "" := by
    intro is
    induction is with
    | nil => exact fun _ => rfl
    | cons i is ih =>
      intro base
      rw [List.map_cons, sent, ih]
      rfl
  unfold stopOpenBlocks
  cases state.lastMessagesType with
  | none => rfl
  | text | thinking => exact hstops [state.index] base
  | tools =>
    have hmap := hstops ((List.range (state.toolCallMaxIndexOffset + 1).toNat).map
      fun (offset : ℕ) => state.toolCallBaseIndex + offset) base
    rwa [List.map_map] at hmap

variable (buildClaudeUsage : Usage → ClaudeUsage) (channel : Channel) {state : ClaudeConvertInfo Usage}
  {info : Info Usage} {base : ℤ} {delta : ChoiceDelta}

variable (h : 0 ≤ state.toolCallMaxIndexOffset)

include h in
theorem lastBase_stopOpenBlocks :
    lastBase (baseOf state) (stopOpenBlocks state : List (ClaudeResponse ClaudeUsage)) = (advance state).index := by
  unfold stopOpenBlocks advance baseOf
  cases state.lastMessagesType with
  | none | text | thinking => rfl
  | tools =>
    have hcount : (state.toolCallMaxIndexOffset + 1).toNat = state.toolCallMaxIndexOffset.toNat + 1 := by omega
    rw [hcount, List.range_succ, List.map_append, lastBase_append]
    simp only [List.map_cons, List.map_nil, lastBase, List.foldl_cons, List.foldl_nil, generateStopBlock, baseAfter]
    omega

def toolSent (fragments : List (ToolCallResponse × ℕ)) : Channel → String
  | .tool k => argumentsOf k fragments
  | _ => ""

theorem sent_fragmentEvents (base offset : ℤ) (toolCall : ToolCallResponse) : sent channel base
        (fragmentEvents (base + offset) toolCall : List (ClaudeResponse ClaudeUsage)) =
        (if channel = .tool offset then toolCall.function.arguments else "") ∧ lastBase base
        (fragmentEvents (base + offset) toolCall : List (ClaudeResponse ClaudeUsage)) = base := by
  have hoffset : base + offset - base = offset := by omega
  unfold fragmentEvents
  by_cases hargs : toolCall.function.arguments ≠ ""
  · rw [if_pos hargs]
    by_cases hname : toolCall.function.name ≠ ""
    · rw [if_pos hname]
      simp [sent, piece, lastBase, baseAfter, hoffset]
    · rw [if_neg hname]
      simp [sent, piece, lastBase, baseAfter, hoffset]
  · rw [if_neg hargs]
    have hempty : toolCall.function.arguments = "" := by simpa using hargs
    by_cases hname : toolCall.function.name ≠ ""
    · rw [if_pos hname]
      simp [sent, piece, lastBase, baseAfter, hempty]
    · rw [if_neg hname]
      simp [sent, lastBase, hempty]

theorem sent_fragments (fragments : List (ToolCallResponse × ℕ)) (state : ClaudeConvertInfo Usage) :
    sent channel state.toolCallBaseIndex (each toolFragment fragments state : Said ClaudeUsage _).1 =
        toolSent fragments channel ∧ lastBase state.toolCallBaseIndex
        (each toolFragment fragments state : Said ClaudeUsage _).1 = state.toolCallBaseIndex := by
  induction fragments generalizing state with
  | nil => cases channel <;> exact ⟨rfl, rfl⟩
  | cons fragment rest ih =>
    obtain ⟨hhead, hbase⟩ := @sent_fragmentEvents ClaudeUsage channel state.toolCallBaseIndex
      (fragment.1.offset fragment.2) fragment.1
    obtain ⟨hrest, hlast⟩ := ih (withMaxOffset (max (fragment.1.offset fragment.2) state.toolCallMaxIndexOffset) state)
    have hstate : (withMaxOffset (max (fragment.1.offset fragment.2) state.toolCallMaxIndexOffset)
      state).toolCallBaseIndex = state.toolCallBaseIndex := rfl
    rw [hstate] at hrest hlast
    rw [each_cons, toolFragment_apply, sent_append, lastBase_append, hhead, hbase, hrest, hlast]
    refine ⟨?_, rfl⟩
    cases channel with
    | text | thinking => rfl
    | tool k =>
      simp only [toolSent, argumentsOf, List.map_cons, join_cons, Channel.tool.injEq]
      simp only [eq_comm]

structure Tracks (base : ℤ) (state : ClaudeConvertInfo Usage) : Prop where
  base : base = baseOf state
  offset : 0 ≤ state.toolCallMaxIndexOffset

/-- A piece of the conversion delivers `text` on the channel, and the observer's base follows. -/
structure Sends (state : ClaudeConvertInfo Usage)
    (out : List (ClaudeResponse ClaudeUsage) × ClaudeConvertInfo Usage) (text : String) : Prop where
  sent : sent channel (baseOf state) out.1 = text
  tracks : Tracks (lastBase (baseOf state) out.1) out.2

section

variable (h : 0 ≤ state.toolCallMaxIndexOffset)

include h

theorem advance_offset : 0 ≤ (advance state).toolCallMaxIndexOffset := by
  unfold advance
  cases state.lastMessagesType with
  | none | text | thinking => exact h
  | tools => exact le_rfl

theorem sends_laterToolCalls (toolCalls : List ToolCallResponse) :
    Sends channel state (laterToolCalls toolCalls state : Said ClaudeUsage _) (toolSent toolCalls.zipIdx channel) := by
  -- the stops lead to the base of the series
  have hstops : sent channel (baseOf state) (seriesStops state : List (ClaudeResponse ClaudeUsage)) = "" ∧
      lastBase (baseOf state) (seriesStops state : List (ClaudeResponse ClaudeUsage)) =
        (seriesState state).toolCallBaseIndex := by
    unfold seriesStops seriesState
    by_cases hlast : state.lastMessagesType = .tools
    · rw [if_pos hlast, if_pos hlast]
      exact ⟨rfl, if_pos hlast⟩
    · rw [if_neg hlast, if_neg hlast]
      exact ⟨sent_stopOpenBlocks channel _ state, lastBase_stopOpenBlocks h⟩
  have hseries : (seriesState state).lastMessagesType = .tools ∧ 0 ≤ (seriesState state).toolCallMaxIndexOffset := by
    unfold seriesState
    split_ifs with hlast
    · exact ⟨hlast, h⟩
    · exact ⟨rfl, le_rfl⟩
  obtain ⟨hsent, hlast⟩ := @sent_fragments Usage ClaudeUsage channel toolCalls.zipIdx (seriesState state)
  obtain ⟨m, hm, hstate⟩ := @each_toolFragment_state Usage ClaudeUsage toolCalls.zipIdx (seriesState state)
  rw [laterToolCalls_apply]
  refine ⟨?_, ⟨?_, ?_⟩⟩
  · rw [sent_append, hstops.1, hstops.2, hsent, empty_append]
  · rw [lastBase_append, hstops.2, hlast, hstate]
    exact (if_pos hseries.1).symm
  · rw [hstate]
    exact hseries.2.trans hm

variable {last : LastMessagesType}

theorem sends_switch (hlast : last ≠ .tools) (block : ContentBlock) (delta : BlockDelta) : Sends channel state
      ((switchEvents block delta state : List (ClaudeResponse ClaudeUsage)), switchedTo last state)
      (piece channel (advance state).index
        (.contentBlockDelta (advance state).index delta : ClaudeResponse ClaudeUsage)) := by
  refine ⟨?_, ⟨?_, advance_offset h⟩⟩
  · unfold switchEvents
    rw [sent_append, sent_stopOpenBlocks, lastBase_stopOpenBlocks h]
    cases delta <;> simp [sent, piece, baseAfter]
  · unfold switchEvents
    rw [lastBase_append, lastBase_stopOpenBlocks h]
    exact (if_neg hlast).symm

theorem sends_laterBlock (hlast : last ≠ .tools) (block : ContentBlock) (delta : BlockDelta) (text : String)
    (htext : ∀ i, piece channel i (.contentBlockDelta i delta : ClaudeResponse ClaudeUsage) = text) :
    Sends channel state (laterBlock last block delta state : Said ClaudeUsage _) text := by
  by_cases hsame : state.lastMessagesType = last
  · have hbase : baseOf state = state.index := if_neg (by rw [hsame]; exact hlast)
    rw [laterBlock_same hsame]
    refine ⟨?_, ⟨rfl, h⟩⟩
    rw [hbase]
    simp [sent, htext]
  · rw [laterBlock_switch hsame, ← htext (advance state).index]
    exact sends_switch channel h hlast block delta

/-- **A later chunk's content**: tool calls, or else reasoning, or else text. -/
theorem sends_laterContent (delta : ChoiceDelta) :
    Sends channel state (laterContent delta state : Said ClaudeUsage _) (laterSent delta channel) := by
  unfold laterContent laterSent
  by_cases htools : delta.toolCalls ≠ []
  · rw [if_pos htools, if_pos htools]
    have hsends := @sends_laterToolCalls Usage ClaudeUsage channel state h delta.toolCalls
    cases channel <;> exact hsends
  rw [if_neg htools, if_neg htools]
  by_cases hreasoning : delta.getReasoningContent ≠ ""
  · rw [if_pos hreasoning, if_pos hreasoning]
    exact sends_laterBlock channel h (by simp) _ _ _ fun i => rfl
  rw [if_neg hreasoning, if_neg hreasoning]
  by_cases htext : delta.getContentString ≠ ""
  · rw [if_pos htext]
    exact sends_laterBlock channel h (by simp) _ _ _ fun i => rfl
  · have hempty : delta.getContentString = "" := by simpa using htext
    rw [if_neg htext, hempty]
    refine ⟨?_, ⟨rfl, h⟩⟩
    simp [sent]

end

structure Passes (state : ClaudeConvertInfo Usage)
    (out : List (ClaudeResponse ClaudeUsage) × ClaudeConvertInfo Usage) (text : String) : Prop where
  sent : sent channel (baseOf state) out.1 = text
  tracks : out.2.done = false → Tracks (lastBase (baseOf state) out.1) out.2

theorem sent_closing (base : ℤ) (state : ClaudeConvertInfo Usage) (reason : String) (usage : Option ClaudeUsage) :
    sent channel base (stopOpenBlocks state ++ [.messageDelta reason usage, .messageStop]) = "" := by
  rw [sent_append, sent_stopOpenBlocks]
  simp [sent, piece]

include h in
theorem passes_laterResponse (hlive : state.done = false) (response : ChatCompletionsStreamResponse Usage) :
    Passes channel state (laterResponse buildClaudeUsage response state) (match response.choices with
        | [] => ""
        | choice :: _ =>
          if choice.finish = none ∨ response.usage.isSome = true then laterSent choice.delta channel
          else "") := by
  have hstay : Tracks (baseOf state) state := ⟨rfl, h⟩
  unfold laterResponse
  cases response.choices with
  | nil =>
    simp only [usageChunk]
    cases response.usageOr state with
    | none => exact ⟨rfl, fun _ => hstay⟩
    | some usage => exact ⟨sent_closing channel _ state _ _, fun hdone => by cases hdone⟩
  | cons choice rest =>
    simp only [laterChunk]
    cases hfinish : choice.finish with
    | none =>
      rw [if_pos (.inl rfl)]
      have hsends := @sends_laterContent Usage ClaudeUsage channel state h choice.delta
      have hlive' := (@laterContent_done Usage ClaudeUsage choice.delta state).trans hlive
      simp only [andThen_apply, hlive', Bool.false_eq_true, if_false, List.append_nil]
      exact ⟨hsends.sent, fun _ => hsends.tracks⟩
    | some reason =>
      cases husage : response.usage with
      | none =>
        rw [if_neg (by simp)]
        exact ⟨rfl, fun _ => ⟨rfl, h⟩⟩
      | some usage =>
        rw [if_pos (.inr rfl)]
        have hsends := @sends_laterContent Usage ClaudeUsage channel (setFinishReason reason state) h choice.delta
        simp only [andThen_apply, update_apply, List.nil_append, closeMessage_apply buildClaudeUsage husage]
        refine ⟨?_, fun hdone => by cases hdone⟩
        rw [sent_append, sent_closing, append_empty]
        exact hsends.sent

theorem Sends.andThen {channel : Channel}
    {out out' : List (ClaudeResponse ClaudeUsage) × ClaudeConvertInfo Usage} {text text' : String}
    (h : Sends channel state out text) (h' : Passes channel out.2 out' text') :
    Passes channel state (out.1 ++ out'.1, out'.2) (text ++ text') := by
  refine ⟨?_, fun hdone => ?_⟩
  · rw [sent_append, h.sent, h.tracks.base, h'.sent]
  · rw [lastBase_append, h.tracks.base]
    exact h'.tracks hdone

theorem sends_firstToolCall (usage : Option Usage) (toolCall : ToolCallResponse) :
    Sends channel { usage } (firstToolCall toolCall { usage } : Said ClaudeUsage _)
      (if channel = .tool 0 then toolCall.function.arguments else "") := by
  unfold firstToolCall
  by_cases hargs : toolCall.function.arguments ≠ ""
  · rw [if_pos hargs]
    refine ⟨?_, ⟨rfl, le_rfl⟩⟩
    simp [sent, piece, baseAfter, baseOf]
  · rw [if_neg hargs]
    have hempty : toolCall.function.arguments = "" := by simpa using hargs
    refine ⟨?_, ⟨rfl, le_rfl⟩⟩
    simp [sent, piece, hempty]

def contentSent (delta : ChoiceDelta) (channel : Channel) : String :=
  if delta.getReasoningContent ≠ "" then
    if channel = .thinking then delta.getReasoningContent else ""
  else if channel = .text then delta.getContentString else ""

theorem firstSent_nil (h : delta.toolCalls = []) (channel : Channel) :
    firstSent delta channel = contentSent delta channel := by
  unfold firstSent contentSent
  cases channel with
  | text => simp
  | thinking => by_cases hr : delta.getReasoningContent = "" <;> simp [hr]
  | tool k => simp [h]

theorem firstSent_cons {toolCall : ToolCallResponse} {others : List ToolCallResponse}
    (h : delta.toolCalls = toolCall :: others) (channel : Channel) : firstSent delta channel =
      (if channel = .tool 0 then toolCall.function.arguments else "") ++ contentSent delta channel := by
  unfold firstSent contentSent
  cases channel with
  | text => simp
  | thinking => by_cases hr : delta.getReasoningContent = "" <;> simp [hr]
  | tool k => simp [h]

include h in
theorem sends_firstContent (htext : state.lastMessagesType ≠ .text)
    (hthinking : state.lastMessagesType ≠ .thinking) (delta : ChoiceDelta) :
    Sends channel state (firstContent delta state : Said ClaudeUsage _) (contentSent delta channel) := by
  rw [firstContent_apply htext hthinking]
  unfold contentSent
  by_cases hreasoning : delta.getReasoningContent ≠ ""
  · rw [if_pos hreasoning, if_pos hreasoning]
    exact sends_switch channel h (by simp) _ _
  rw [if_neg hreasoning, if_neg hreasoning]
  by_cases hcontent : delta.getContentString ≠ ""
  · rw [if_pos hcontent]
    exact sends_switch channel h (by simp) _ _
  · have hempty : delta.getContentString = "" := by simpa using hcontent
    rw [if_neg hcontent, hempty]
    refine ⟨?_, ⟨rfl, h⟩⟩
    simp [sent]

include h in
theorem passes_firstFinish (response : ChatCompletionsStreamResponse Usage) (choice : Choice) :
    Passes channel state (firstFinish buildClaudeUsage response choice state) "" := by
  unfold firstFinish
  cases choice.finish with
  | none => exact ⟨rfl, fun _ => ⟨rfl, h⟩⟩
  | some reason =>
    simp only [andThen_apply, update_apply, List.nil_append]
    cases response.usageOr (setFinishReason reason state) with
    | none => exact ⟨rfl, fun _ => ⟨rfl, h⟩⟩
    | some usage =>
      exact ⟨sent_closing channel _ (setFinishReason reason state) _ _, fun hdone => by cases hdone⟩

/-- **The first chunk**: its first tool fragment, and its reasoning or else its text. -/
theorem passes_firstChunk (response : ChatCompletionsStreamResponse Usage) (tokens : ℤ) (usage : Option Usage) :
    Passes channel { usage } (firstChunk buildClaudeUsage response tokens { usage }) (match response.choices with
        | [] => ""
        | choice :: _ => firstSent choice.delta channel) := by
  have hstart : Sends channel ({ usage } : ClaudeConvertInfo Usage)
      ([(.messageStart response.id response.model tokens : ClaudeResponse ClaudeUsage)],
        { usage }) "" := by
    refine ⟨?_, ⟨rfl, le_rfl⟩⟩
    simp [sent, piece]
  unfold firstChunk
  cases response.choices with
  | nil =>
    have hskip : Passes channel ({ usage } : ClaudeConvertInfo Usage)
        (([] : List (ClaudeResponse ClaudeUsage)), { usage }) "" :=
      ⟨rfl, fun _ => ⟨rfl, le_rfl⟩⟩
    exact hstart.andThen hskip
  | cons choice rest =>
    simp only [andThen_apply]
    cases hcalls : choice.delta.toolCalls with
    | nil =>
      have hcontent := @sends_firstContent Usage ClaudeUsage channel { usage } le_rfl (by simp) (by simp) choice.delta
      have hfinish := passes_firstFinish buildClaudeUsage channel hcontent.tracks.offset response choice
      have hpasses := hstart.andThen (hcontent.andThen hfinish)
      rw [empty_append, append_empty, ← firstSent_nil hcalls] at hpasses
      exact hpasses
    | cons toolCall others =>
      have htool := @sends_firstToolCall Usage ClaudeUsage channel usage toolCall
      have hcontent := @sends_firstContent Usage ClaudeUsage channel
        (firstToolCall toolCall { usage } : Said ClaudeUsage _).2
        htool.tracks.offset (by simp [firstToolCall]) (by simp [firstToolCall]) choice.delta
      have hfinish := passes_firstFinish buildClaudeUsage channel hcontent.tracks.offset response choice
      have hpasses := hstart.andThen (htool.andThen (hcontent.andThen hfinish))
      rw [empty_append, append_empty, ← firstSent_cons hcalls] at hpasses
      exact hpasses

/-! ### What is left out -/

theorem argumentsOf_cons (k : ℤ) (fragment : ToolCallResponse × ℕ) (rest : List (ToolCallResponse × ℕ)) :
    argumentsOf k (fragment :: rest) =
      (if fragment.1.offset fragment.2 = k then fragment.1.function.arguments else "") ++ argumentsOf k rest := by
  simp [argumentsOf, join_cons]

variable {fragments : List (ToolCallResponse × ℕ)}

theorem argumentsOf_empty (h : ∀ fragment ∈ fragments, fragment.1.function.arguments = "") (k : ℤ) :
    argumentsOf k fragments = "" := by
  induction fragments with
  | nil => rfl
  | cons fragment rest ih =>
    rw [argumentsOf_cons, h fragment List.mem_cons_self, ih fun f hf => h f (List.mem_cons_of_mem _ hf)]
    split_ifs <;> rfl

theorem arguments_empty (h : ∀ k, argumentsOf k fragments = "") :
    ∀ fragment ∈ fragments, fragment.1.function.arguments = "" := by
  induction fragments with
  | nil => simp
  | cons fragment rest ih =>
    have hsplit : ∀ k, (if fragment.1.offset fragment.2 = k then fragment.1.function.arguments
        else "") = "" ∧ argumentsOf k rest = "" := fun k => by
      have hk := h k
      rw [argumentsOf_cons] at hk
      exact append_eq_empty_iff.mp hk
    intro f hf
    rcases List.mem_cons.mp hf with rfl | hf
    · have hhead := (hsplit (f.1.offset f.2)).1
      rwa [if_pos rfl] at hhead
    · exact ih (fun k => (hsplit k).2) f hf

theorem mem_zipIdx_fst {toolCalls : List ToolCallResponse} {i : ℕ} {P : ToolCallResponse → Prop} :
    (∀ fragment ∈ toolCalls.zipIdx i, P fragment.1) ↔ ∀ toolCall ∈ toolCalls, P toolCall := by
  have hmap : (toolCalls.zipIdx i).map Prod.fst = toolCalls := List.zipIdx_map_fst i toolCalls
  constructor
  · intro h toolCall hmem
    rw [← hmap] at hmem
    obtain ⟨fragment, hfragment, rfl⟩ := List.mem_map.mp hmem
    exact h fragment hfragment
  · intro h fragment hmem
    refine h fragment.1 ?_
    rw [← hmap]
    exact List.mem_map_of_mem hmem

theorem silent_iff (delta : ChoiceDelta) : (∀ channel, "" = carriedBy delta channel) ↔ Silent delta := by
  constructor
  · intro h
    refine ⟨(h .text).symm, (h .thinking).symm, ?_⟩
    exact mem_zipIdx_fst.mp (arguments_empty fun k => (h (.tool k)).symm)
  · rintro ⟨htext, hthinking, htools⟩ channel
    cases channel with
    | text => exact htext.symm
    | thinking => exact hthinking.symm
    | tool k => exact (argumentsOf_empty (mem_zipIdx_fst.mpr htools) k).symm

theorem laterSent_cases (delta : ChoiceDelta) (channel : Channel) :
    laterSent delta channel = carriedBy delta channel ∨ laterSent delta channel = "" := by
  unfold laterSent
  by_cases htools : delta.toolCalls ≠ []
  · rw [if_pos htools]
    cases channel with
    | text | thinking => exact .inr rfl
    | tool k => exact .inl rfl
  rw [if_neg htools]
  by_cases hreasoning : delta.getReasoningContent ≠ ""
  · rw [if_pos hreasoning]
    by_cases hchannel : channel = .thinking
    · rw [if_pos hchannel, hchannel]
      exact .inl rfl
    · exact .inr (if_neg hchannel)
  · rw [if_neg hreasoning]
    by_cases hchannel : channel = .text
    · rw [if_pos hchannel, hchannel]
      exact .inl rfl
    · exact .inr (if_neg hchannel)

theorem laterComplete_iff (delta : ChoiceDelta) :
    (∀ channel, laterSent delta channel = carriedBy delta channel) ↔ LaterComplete delta := by
  unfold LaterComplete laterSent
  by_cases htools : delta.toolCalls ≠ []
  · simp only [if_pos htools]
    constructor
    · intro h
      exact ⟨.inl (h .thinking).symm, fun _ => ⟨(h .thinking).symm, (h .text).symm⟩⟩
    · rintro ⟨-, h⟩ channel
      obtain ⟨hthinking, htext⟩ := h htools
      cases channel with
      | text => exact htext.symm
      | thinking => exact hthinking.symm
      | tool k => rfl
  have hnil : delta.toolCalls = [] := by simpa using htools
  simp only [if_neg htools]
  by_cases hreasoning : delta.getReasoningContent ≠ ""
  · simp only [if_pos hreasoning]
    constructor
    · intro h
      exact ⟨.inr (h .text).symm, fun hne => absurd hnil hne⟩
    · rintro ⟨hone, -⟩ channel
      cases channel with
      | text => exact (hone.resolve_left hreasoning).symm
      | thinking => rfl
      | tool k => simp [carriedBy, hnil, argumentsOf]
  · have hempty : delta.getReasoningContent = "" := by simpa using hreasoning
    simp only [if_neg hreasoning]
    refine iff_of_true (fun channel => ?_) ⟨.inl hempty, fun hne => absurd hnil hne⟩
    cases channel with
    | text => rfl
    | thinking => exact hempty.symm
    | tool k => simp [carriedBy, hnil, argumentsOf]

/-- The first fragment's arguments are taken for call 0, and no other fragment is looked at. -/
theorem firstTool_iff (toolCall : ToolCallResponse) (others : List ToolCallResponse) :
    (∀ k : ℤ, (if k = 0 then toolCall.function.arguments else "") = argumentsOf k ((toolCall :: others).zipIdx)) ↔
      (toolCall.function.arguments = "" ∨ toolCall.offset 0 = 0) ∧ ∀ other ∈ others, other.function.arguments = "" := by
  rw [List.zipIdx_cons]
  simp only [argumentsOf_cons]
  constructor
  · intro h
    have hown : toolCall.function.arguments = "" ∨ toolCall.offset 0 = 0 := by
      by_cases hzero : toolCall.offset 0 = 0
      · exact .inr hzero
      · have hk := h (toolCall.offset 0)
        rw [if_neg hzero, if_pos rfl] at hk
        exact .inl (append_eq_empty_iff.mp hk.symm).1
    have hrest : ∀ k, argumentsOf k (others.zipIdx (0 + 1)) = "" := by
      intro k
      have hk := h k
      rcases hown with hempty | hzero
      · rw [hempty, ite_self, ite_self, empty_append] at hk
        exact hk.symm
      · by_cases hk₀ : k = 0
        · rw [if_pos hk₀, if_pos (hzero.trans hk₀.symm)] at hk
          refine (append_right_inj toolCall.function.arguments).mp ?_
          rw [append_empty]
          exact hk.symm
        · have hne : ¬ toolCall.offset 0 = k := fun heq => hk₀ (heq.symm.trans hzero)
          rw [if_neg hk₀, if_neg hne, empty_append] at hk
          exact hk.symm
    exact ⟨hown, mem_zipIdx_fst.mp (arguments_empty hrest)⟩
  · rintro ⟨hown, hothers⟩ k
    rw [argumentsOf_empty (mem_zipIdx_fst.mpr hothers), append_empty]
    rcases hown with hempty | hzero
    · rw [hempty, ite_self, ite_self]
    · rw [hzero]
      simp only [eq_comm]

theorem firstComplete_iff (delta : ChoiceDelta) :
    (∀ channel, firstSent delta channel = carriedBy delta channel) ↔ FirstComplete delta := by
  have htext : firstSent delta .text = carriedBy delta .text ↔
      delta.getReasoningContent = "" ∨ delta.getContentString = "" := by
    simp only [firstSent, carriedBy]
    by_cases hreasoning : delta.getReasoningContent = ""
    · simp [hreasoning]
    · simp only [ne_eq, hreasoning, not_false_eq_true, if_true, false_or]
      exact eq_comm
  have htools : (∀ k, firstSent delta (.tool k) = carriedBy delta (.tool k)) ↔
      (∀ toolCall ∈ delta.toolCalls.head?, toolCall.function.arguments = "" ∨ toolCall.offset 0 = 0) ∧
      ∀ toolCall ∈ delta.toolCalls.tail, toolCall.function.arguments = "" := by
    simp only [firstSent, carriedBy]
    cases delta.toolCalls with
    | nil => simp [argumentsOf]
    | cons toolCall others =>
      simp only [List.head?_cons, Option.mem_some_iff, forall_eq', List.tail_cons]
      exact firstTool_iff toolCall others
  unfold FirstComplete
  rw [← htext, ← htools]
  constructor
  · exact fun h => ⟨h .text, fun k => h (.tool k)⟩
  · rintro ⟨h₁, h₂⟩ channel
    cases channel with
    | text => exact h₁
    | thinking => rfl
    | tool k => exact h₂ k

variable {response : ChatCompletionsStreamResponse Usage}

theorem carried_single {choice : Choice} {rest : List Choice} (hsingle : response.choices.length ≤ 1)
    (h : response.choices = choice :: rest) (channel : Channel) :
    carried response channel = carriedBy choice.delta channel := by
  have hrest : rest = [] := by
    rw [h] at hsingle
    simpa using hsingle
  simp [carried, h, hrest, join_cons]

/-- **A chunk** is forwarded in full exactly if it carries no more than the converter forwards. -/
theorem forwarded_iff (info : Info Usage) {arrival : Arrival Usage} (hsingle : arrival.response.choices.length ≤ 1) :
    (∀ channel, stepSent info arrival.response channel = carried arrival.response channel) ↔
      Forwarded info arrival := by
  unfold stepSent Forwarded
  cases hchoices : arrival.response.choices with
  | nil => simp [carried, hchoices]
  | cons choice rest =>
    simp only [carried_single hsingle hchoices, List.head?_cons, Option.mem_some_iff, forall_eq']
    split_ifs
    · exact firstComplete_iff choice.delta
    · exact laterComplete_iff choice.delta
    · exact silent_iff choice.delta

section

variable (hcount : 1 ≤ info.sendResponseCount)

include hcount

theorem stepSent_cases (hsingle : response.choices.length ≤ 1)
    (channel : Channel) : stepSent info response channel = carried response channel ∨
      stepSent info response channel = "" := by
  unfold stepSent
  cases hchoices : response.choices with
  | nil => exact .inr rfl
  | cons choice rest =>
    have hlater : ¬ info.sendResponseCount = 0 := by omega
    simp only [carried_single hsingle hchoices, if_neg hlater]
    split_ifs
    · exact laterSent_cases choice.delta channel
    · exact .inr rfl

theorem stepSent_length_le (hsingle : response.choices.length ≤ 1) :
    (stepSent info response channel).length ≤ (carried response channel).length := by
  rcases stepSent_cases hcount hsingle channel with heq | heq
  · rw [heq]
  · rw [heq]
    exact Nat.zero_le _

/-! ### The whole stream -/

theorem sent_arrive (htracks : info.claudeConvertInfo.done = false → Tracks base info.claudeConvertInfo)
    (arrival : Arrival Usage) : sent channel base (arrive buildClaudeUsage arrival info).1 =
        stepSent info arrival.response channel ∧
      ((arrive buildClaudeUsage arrival info).2.claudeConvertInfo.done = false →
        Tracks (lastBase base (arrive buildClaudeUsage arrival info).1)
          (arrive buildClaudeUsage arrival info).2.claudeConvertInfo) := by
  have hlater : ¬ info.sendResponseCount = 0 := by omega
  cases hdone : info.claudeConvertInfo.done with
  | true =>
    rw [arrive_done buildClaudeUsage hdone]
    refine ⟨?_, fun hlive => ?_⟩
    · unfold stepSent Converted
      cases arrival.response.choices with
      | nil => rfl
      | cons choice rest => simp [sent, hdone]
    · have hlive' : info.claudeConvertInfo.done = false := hlive
      rw [hdone] at hlive'
      cases hlive'
  | false =>
    obtain ⟨hbase, hoffset⟩ := htracks hdone
    have hstate : baseOf (prepared arrival info).claudeConvertInfo = base := hbase.symm
    have hpasses := passes_laterResponse buildClaudeUsage channel
      (show 0 ≤ (prepared arrival info).claudeConvertInfo.toolCallMaxIndexOffset from hoffset)
      (show (prepared arrival info).claudeConvertInfo.done = false from hdone) arrival.response
    obtain ⟨hsent, htracks'⟩ := hpasses
    rw [hstate] at hsent htracks'
    rw [arrive_later buildClaudeUsage hcount hdone]
    refine ⟨?_, htracks'⟩
    rw [hsent]
    unfold stepSent Converted
    cases arrival.response.choices with
    | nil => rfl
    | cons choice rest => simp [hdone, hlater]

end

def carriedAll (arrivals : List (Arrival Usage)) (channel : Channel) : String :=
  String.join (arrivals.map fun arrival => carried arrival.response channel)

theorem carriedAll_cons (arrival : Arrival Usage) (arrivals : List (Arrival Usage)) (channel : Channel) :
    carriedAll (arrival :: arrivals) channel = carried arrival.response channel ++ carriedAll arrivals channel := by
  simp [carriedAll, join_cons]

theorem sent_finish (base : ℤ) (stored : Option Usage) (info : Info Usage) :
    sent channel base (finish buildClaudeUsage stored info).1 = "" := by
  cases hdone : info.claudeConvertInfo.done with
  | true => rw [finish_done buildClaudeUsage hdone, sent]
  | false =>
    obtain ⟨reason, usage, hfinish⟩ := finish_live buildClaudeUsage hdone stored
    rw [hfinish]
    exact sent_closing channel base _ reason usage

theorem count_arrive (hcount : 1 ≤ info.sendResponseCount) (arrival : Arrival Usage) :
    1 ≤ (arrive buildClaudeUsage arrival info).2.sendResponseCount := by
  have hnext : 1 ≤ info.sendResponseCount + 1 := by omega
  cases hdone : info.claudeConvertInfo.done with
  | true =>
    rw [arrive_done buildClaudeUsage hdone]
    exact hnext
  | false =>
    rw [arrive_later buildClaudeUsage hcount hdone]
    exact hnext

section

variable {arrivals : List (Arrival Usage)} (stored : Option Usage) (hcount : 1 ≤ info.sendResponseCount)
  (htracks : info.claudeConvertInfo.done = false → Tracks base info.claudeConvertInfo)
  (hsingle : ∀ arrival ∈ arrivals, arrival.response.choices.length ≤ 1)

include arrivals stored hcount htracks hsingle

/-- **Never more**: a stream delivers at most what its chunks carry. -/
theorem sent_length_le : (sent channel base (remainder buildClaudeUsage arrivals stored info).1).length ≤
      (carriedAll arrivals channel).length := by
  induction arrivals generalizing info base with
  | nil =>
    simp only [remainder, andThen_apply, each_nil, List.nil_append]
    rw [sent_finish]
    exact Nat.zero_le _
  | cons arrival arrivals ih =>
    obtain ⟨hsent, htracks'⟩ := sent_arrive buildClaudeUsage channel hcount htracks arrival
    obtain ⟨hsingle₁, hsingle'⟩ := List.forall_mem_cons.mp hsingle
    have hrest := ih (count_arrive buildClaudeUsage hcount arrival) htracks' hsingle'
    rw [remainder_cons, sent_append, hsent, carriedAll_cons, length_append, length_append]
    exact Nat.add_le_add (stepSent_length_le channel hcount hsingle₁) hrest

/-- **Run**: from the second chunk on, everything is delivered exactly if every chunk is forwarded. -/
theorem delivered_iff_forwarded :
    (∀ channel, sent channel base (remainder buildClaudeUsage arrivals stored info).1 = carriedAll arrivals channel) ↔
      StepSys.Along (after (arrive buildClaudeUsage)) Forwarded info arrivals := by
  induction arrivals generalizing info base with
  | nil =>
    refine iff_of_true (fun channel => ?_) trivial
    simp only [remainder, andThen_apply, each_nil, List.nil_append]
    exact sent_finish buildClaudeUsage channel base stored info
  | cons arrival arrivals ih =>
    obtain ⟨hsingle₁, hsingle'⟩ := List.forall_mem_cons.mp hsingle
    have hcount' := count_arrive buildClaudeUsage hcount arrival
    have htracks' := (sent_arrive buildClaudeUsage .text hcount htracks arrival).2
    rw [StepSys.Along, after, ← ih hcount' htracks' hsingle', ← forwarded_iff info hsingle₁, ← forall_and]
    refine forall_congr' fun channel => ?_
    obtain ⟨hsent, -⟩ := sent_arrive buildClaudeUsage channel hcount htracks arrival
    have hle := sent_length_le buildClaudeUsage channel stored hcount' htracks' hsingle'
    have hhead := stepSent_length_le channel hcount hsingle₁
    rw [remainder_cons, sent_append, hsent, carriedAll_cons]
    constructor
    · exact fun h => GoText.append_inj_of_le h hhead hle
    · rintro ⟨h₁, h₂⟩
      rw [h₁, h₂]

end

/-- The first chunk forwards no more than it carries, unless it takes arguments for those of call 0;
these are then missing in their own channel. -/
theorem firstSent_length_le {rest full : Channel → String}
    (hle : ∀ channel, (rest channel).length ≤ (full channel).length)
    (h : ∀ channel, firstSent delta channel ++ rest channel = carriedBy delta channel ++ full channel)
    (channel : Channel) : (firstSent delta channel).length ≤ (carriedBy delta channel).length := by
  cases channel with
  | text =>
    simp only [firstSent, carriedBy]
    split_ifs
    · exact Nat.zero_le _
    · exact le_rfl
  | thinking => exact le_rfl
  | tool k =>
    cases hcalls : delta.toolCalls with
    | nil => simp [firstSent, hcalls]
    | cons toolCall others =>
      by_cases hk : k = 0
      · subst hk
        by_cases hzero : toolCall.offset 0 = 0
        · simp only [firstSent, carriedBy, hcalls, List.zipIdx_cons, argumentsOf_cons, if_pos,
            if_pos hzero, length_append]
          omega
        · have hown := h (.tool (toolCall.offset 0))
          have hlen := congrArg String.length hown
          have hle' := hle (.tool (toolCall.offset 0))
          simp only [firstSent, carriedBy, hcalls, List.zipIdx_cons, argumentsOf_cons, if_pos,
            if_neg hzero, length_append, length_empty] at hlen
          simp only [firstSent, hcalls, if_pos]
          omega
      · simp [firstSent, hcalls, hk]

/-- **Content**: for every stream of chunks with one choice each, the text, the reasoning and the arguments of
every tool call arrive in full exactly if no chunk carries more than the converter forwards of it. -/
theorem claudeStream_delivers_iff (buildClaudeUsage : Usage → ClaudeUsage)
    (estimatePromptTokens : ℤ) (arrivals : List (Arrival Usage)) (stored : Option Usage)
    (hsingle : ∀ arrival ∈ arrivals, arrival.response.choices.length ≤ 1) :
    Delivers buildClaudeUsage estimatePromptTokens arrivals stored ↔
      StepSys.Along (after (arrive buildClaudeUsage)) Forwarded
        { estimatePromptTokens := estimatePromptTokens } arrivals := by
  unfold Delivers
  rw [claudeStream_eq]
  show (∀ channel, _ = carriedAll arrivals channel) ↔ _
  cases arrivals with
  | nil =>
    refine iff_of_true (fun channel => ?_) trivial
    simp only [remainder, andThen_apply, each_nil, List.nil_append]
    exact sent_finish buildClaudeUsage channel 0 stored _
  | cons arrival arrivals =>
    obtain ⟨hsingle₁, hsingle'⟩ := List.forall_mem_cons.mp hsingle
    have hfirst : ∀ channel, sent channel 0 (firstOf buildClaudeUsage estimatePromptTokens arrival).1 =
        stepSent { estimatePromptTokens } arrival.response channel :=
      fun channel => by
        have hsent := (passes_firstChunk buildClaudeUsage channel arrival.response
          estimatePromptTokens (arrival.stored.or none)).sent
        refine hsent.trans ?_
        unfold stepSent Converted
        cases arrival.response.choices with
        | nil => rfl
        | cons choice rest => simp
    have htracks := (passes_firstChunk buildClaudeUsage .text arrival.response
      estimatePromptTokens (arrival.stored.or none)).tracks
    have hiff := @delivered_iff_forwarded Usage ClaudeUsage buildClaudeUsage
      (opened buildClaudeUsage estimatePromptTokens arrival) _ arrivals stored le_rfl htracks hsingle'
    have hle := fun channel => @sent_length_le Usage ClaudeUsage buildClaudeUsage channel
      (opened buildClaudeUsage estimatePromptTokens arrival) _ arrivals stored le_rfl htracks hsingle'
    rw [remainder_cons, StepSys.Along, after, arrive_first, ← hiff,
      ← forwarded_iff _ hsingle₁]
    simp only [sent_append, hfirst, carriedAll_cons]
    constructor
    · intro h
      have hhead : ∀ channel,
          (stepSent { estimatePromptTokens } arrival.response
            channel).length ≤ (carried arrival.response channel).length := by
        cases hchoices : arrival.response.choices with
        | nil =>
          intro channel
          simp [stepSent, hchoices]
        | cons choice rest =>
          have hstep : ∀ channel,
              stepSent { estimatePromptTokens } arrival.response channel =
                firstSent choice.delta channel := fun channel => by
            simp [stepSent, hchoices, Converted]
          simp only [hstep, carried_single hsingle₁ hchoices] at h ⊢
          exact firstSent_length_le hle h
      exact ⟨fun channel => (GoText.append_inj_of_le (h channel) (hhead channel) (hle channel)).1,
        fun channel => (GoText.append_inj_of_le (h channel) (hhead channel) (hle channel)).2⟩
    · rintro ⟨h₁, h₂⟩ channel
      rw [h₁ channel]
      exact congrArg _ (h₂ channel)

end channels

/-! ### Two streams -/

/-- Reasoning and text one after the other, two calls in parallel, and the end. -/
theorem parallelCalls_delivers : Delivers (fun n : ℕ => n) 0 parallelCalls none :=
  (claudeStream_delivers_iff (fun n : ℕ => n) 0 parallelCalls none (by decide)).mpr (by decide)

def textWithFinish : List (Arrival ℕ) :=
  [chunkOf { content := some "a" }, chunkOf { content := some "b" } (some "stop"),
    { response := { usage := some 7 } }]

/-- The text that comes with the finish reason is lost. -/
theorem textWithFinish_loses : (∀ arrival ∈ textWithFinish, arrival.response.choices.length ≤ 1) ∧
      sent .text 0 (claudeStream (fun n : ℕ => n) 0 textWithFinish none) = "a" ∧
      ¬ Delivers (fun n : ℕ => n) 0 textWithFinish none := by
  refine ⟨by decide, by decide, fun h => ?_⟩
  have htext := h .text
  revert htext
  decide

end WynthApi.Relay
