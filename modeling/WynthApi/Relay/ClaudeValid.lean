import WynthApi.Relay.ClaudeBlocks

/-!
# When the converted stream is a valid stream of Claude events

While the message is open, the blocks are as the state describes them (`Streaming`).  A tool fragment that neither
introduces the next call of its series nor continues one leaves a block that is never started and yet will be stopped;
later calls have larger numbers, so no later chunk can mend that (`Doomed`).
-/

namespace WynthApi.Relay

open Emit Blocks Option

section valid

variable {Usage ClaudeUsage : Type}

/-! ### The message -/

structure Streaming (h : List (ClaudeResponse ClaudeUsage)) (state : ClaudeConvertInfo Usage) :
    Prop where
  live : state.done = false
  opened : ∃ id model tokens body, h = .messageStart id model tokens :: body ∧
    ∀ e ∈ body, e.blockEvent.isSome = true
  bounds : Bounds state
  board : Blocks.play Blocks.blank (blockEvents h) = some (boardOf state)

variable (buildClaudeUsage : Usage → ClaudeUsage) {n : ℤ} {info : Info Usage} {state : ClaudeConvertInfo Usage}
  {fragments : List (ToolCallResponse × ℕ)} {h : List (ClaudeResponse ClaudeUsage)} {g g' : ℕ}
  {delta : ChoiceDelta} {response : ChatCompletionsStreamResponse Usage}

theorem Streaming.append (hs : Streaming h state)
    {out : List (ClaudeResponse ClaudeUsage) × ClaudeConvertInfo Usage} (hf : Follows state out n) :
    Streaming (h ++ out.1) out.2 := by
  obtain ⟨id, model, tokens, body, rfl, hbody⟩ := hs.opened
  refine ⟨hf.done.trans hs.live, ⟨id, model, tokens, body ++ out.1, rfl, fun e he => ?_⟩, hf.bounds, ?_⟩
  · rcases List.mem_append.mp he with he | he
    · exact hbody e he
    · exact hf.plays.only e he
  · rw [blockEvents_append, play_append, hs.board]
    exact hf.plays.play

/-- **The end**: the open blocks are stopped and the message is ended. -/
theorem Streaming.close (hs : Streaming h state) (reason : String) (usage : Option ClaudeUsage) :
    ValidStream (h ++ (stopOpenBlocks state ++ [.messageDelta reason usage, .messageStop])) := by
  obtain ⟨id, model, tokens, body, rfl, hbody⟩ := hs.opened
  have hstops := @plays_stopOpenBlocks Usage ClaudeUsage state hs.bounds .text
  refine ⟨⟨id, model, tokens, body ++ stopOpenBlocks state, reason, usage, by simp, ?_⟩, ?_⟩
  · intro e he
    rcases List.mem_append.mp he with he | he
    · exact hbody e he
    · exact hstops.only e he
  · refine ⟨_, ?_, layout_not_open (advance state).index .text⟩
    rw [blockEvents_append, play_append, hs.board, bind_some, blockEvents_append, play_append, hstops.play]
    rfl

/-- The message is open and well formed, or it was ended and is valid; at most `g` calls of the
running series were introduced. -/
def Alive (h : List (ClaudeResponse ClaudeUsage)) (state : ClaudeConvertInfo Usage) (g : ℕ) : Prop :=
  (Streaming h state ∧ introduced state ≤ g) ∨ (state.done = true ∧ ValidStream h)

/-! ### The first chunk -/

theorem follows_firstToolCall (hlast : state.lastMessagesType = .none) (hindex : state.index = 0)
    (toolCall : ToolCallResponse) : Follows state (firstToolCall toolCall state : Said ClaudeUsage _) 1 := by
  have hboard : boardOf state = layout 0 0 .toolUse := by
    unfold boardOf
    rw [hlast, hindex]
    exact layout_kind 0 _ _
  have hopen : Plays (layout 0 0 .toolUse) [(.contentBlockStart 0 (.toolUse toolCall.id toolCall.function.name) :
        ClaudeResponse ClaudeUsage)] (layout 0 1 .toolUse) :=
    .single rfl (step_start le_rfl le_rfl)
  have hfill : Plays (layout 0 1 .toolUse) (if toolCall.function.arguments ≠ "" then
        [(.contentBlockDelta 0 (.inputJson toolCall.function.arguments) :
          ClaudeResponse ClaudeUsage)] else []) (layout 0 1 .toolUse) := by
    split_ifs
    · exact .single rfl (step_delta le_rfl (by omega))
    · exact .nil _
  refine ⟨?_, ⟨hindex.ge, le_rfl, le_rfl⟩, rfl, le_rfl⟩
  rw [hboard]
  exact hopen.append hfill

theorem firstContent_apply (htext : state.lastMessagesType ≠ .text)
    (hthinking : state.lastMessagesType ≠ .thinking) : (firstContent delta state : Said ClaudeUsage _) =
      if delta.getReasoningContent ≠ "" then
        (switchEvents .thinking (.thinking delta.getReasoningContent) state, switchedTo .thinking state)
      else if delta.getContentString ≠ "" then
        (switchEvents .text (.text delta.getContentString) state, switchedTo .text state)
      else ([], state) := by
  unfold firstContent
  split_ifs <;>
    simp [unlessLast, htext, hthinking, deltaBlock, switchEvents, switchedTo, stopOpenBlocksAndAdvance, startBlock]

theorem follows_firstContent (h : Bounds state) (htext : state.lastMessagesType ≠ .text)
    (hthinking : state.lastMessagesType ≠ .thinking) :
    Follows state (firstContent delta state : Said ClaudeUsage _) (introduced state) := by
  have hn := introduced_nonneg h
  rw [firstContent_apply htext hthinking]
  split_ifs
  · exact (follows_switch (.inr ⟨rfl, rfl⟩) rfl rfl h).mono hn
  · exact (follows_switch (.inl ⟨rfl, rfl⟩) rfl rfl h).mono hn
  · exact ⟨.nil _, h, rfl, le_rfl⟩

theorem streaming_setFinishReason (hs : Streaming h state) (reason : String) :
    Streaming h (setFinishReason reason state) :=
  ⟨hs.live, hs.opened, ⟨hs.bounds.index, hs.bounds.base, hs.bounds.offset⟩, hs.board⟩

variable {choice : Choice}

theorem toolCalls_single {rest : List Choice} (hsingle : response.choices.length ≤ 1)
    (h : response.choices = choice :: rest) : response.toolCalls = choice.delta.toolCalls := by
  have hrest : rest = [] := by
    rw [h] at hsingle
    simpa using hsingle
  simp [ChatCompletionsStreamResponse.toolCalls, h, hrest]

/-- **The end, deferred**: a finish reason ends the message if a usage is known. -/
theorem alive_firstFinish (hs : Streaming h state) (hg : introduced state ≤ g)
    (response : ChatCompletionsStreamResponse Usage) (choice : Choice) :
    Alive (h ++ (firstFinish buildClaudeUsage response choice state).1)
      (firstFinish buildClaudeUsage response choice state).2 g := by
  unfold firstFinish
  cases choice.finish with
  | none =>
    simp only [skip_apply, List.append_nil]
    exact .inl ⟨hs, hg⟩
  | some reason =>
    have hs' := streaming_setFinishReason hs reason
    simp only [andThen_apply, update_apply, List.nil_append]
    cases response.usageOr (setFinishReason reason state) with
    | none =>
      rw [List.append_nil]
      exact .inl ⟨hs', hg⟩
    | some usage => exact .inr ⟨rfl, hs'.close _ _⟩

theorem alive_firstChunk (hsingle : response.choices.length ≤ 1) (hnum : Numbered 0 response.toolCalls)
    (tokens : ℤ) (usage : Option Usage) : Alive (firstChunk buildClaudeUsage response tokens { usage }).1
      (firstChunk buildClaudeUsage response tokens { usage }).2 (introductions response.toolCalls) := by
  have hstart : Streaming [(.messageStart response.id response.model tokens : ClaudeResponse ClaudeUsage)]
      ({ usage } : ClaudeConvertInfo Usage) :=
    ⟨rfl, ⟨_, _, _, [], rfl, by simp⟩, ⟨le_rfl, le_rfl, le_rfl⟩, congrArg some (layout_zero _).symm⟩
  unfold firstChunk
  simp only [andThen_apply, write_apply]
  cases hchoices : response.choices with
  | nil => exact .inl ⟨hstart, by simp [introduced]⟩
  | cons choice rest =>
    rw [toolCalls_single hsingle hchoices] at hnum ⊢
    simp only [andThen_apply, ← List.append_assoc]
    cases hcalls : choice.delta.toolCalls with
    | nil =>
      simp only [skip_apply, List.append_nil]
      have hcontent := @follows_firstContent Usage ClaudeUsage
        { usage } choice.delta hstart.bounds (by simp) (by simp)
      refine alive_firstFinish buildClaudeUsage (hstart.append hcontent) ?_ response choice
      exact hcontent.introduced
    | cons toolCall others =>
      -- the first fragment has no earlier call to continue
      have hname : toolCall.function.name ≠ "" := by
        rw [hcalls, Numbered] at hnum
        intro hname
        rw [if_neg (by simp [hname])] at hnum
        obtain ⟨⟨k, hk, -⟩, -⟩ := hnum
        omega
      have htool := @follows_firstToolCall Usage ClaudeUsage { usage } rfl rfl toolCall
      have hs := hstart.append htool
      have hcontent := @follows_firstContent Usage ClaudeUsage _ choice.delta hs.bounds
        (by simp [firstToolCall]) (by simp [firstToolCall])
      refine alive_firstFinish buildClaudeUsage (hs.append hcontent) ?_ response choice
      have hone : (1 : ℤ) ≤ (introductions (toolCall :: others) : ℕ) := by
        rw [introductions_cons, if_pos hname]
        push_cast
        omega
      exact (hcontent.introduced.trans htool.introduced).trans hone

/-! ### Later chunks -/

theorem closeMessage_apply {usage : Usage} (h : response.usage = some usage)
    (state : ClaudeConvertInfo Usage) : closeMessage buildClaudeUsage response state =
      (stopOpenBlocks state ++ [.messageDelta (stopReasonOpenAI2Claude state.finishReason)
          (some (buildClaudeUsage usage)), .messageStop], setDone state) := by
  simp [closeMessage, appendStopOpenBlocks, ChatCompletionsStreamResponse.usageOr, h]

/-- **A later chunk**: the message stays open and well formed, or it is ended. -/
theorem alive_laterResponse (hs : Streaming h state) (hg : introduced state ≤ g) (hsingle : response.choices.length ≤ 1)
    (hserial : ∀ choice ∈ response.choices.head?, (choice.finish = none ∨ response.usage.isSome = true) →
      Continues (introduced state) choice.delta.toolCalls.zipIdx) :
    Alive (h ++ (laterResponse buildClaudeUsage response state).1)
      (laterResponse buildClaudeUsage response state).2 (g + introductions response.toolCalls) := by
  have hmono : introduced state ≤ (g + introductions response.toolCalls : ℕ) := by
    push_cast
    omega
  unfold laterResponse
  cases hchoices : response.choices with
  | nil =>
    simp only [usageChunk]
    cases response.usageOr state with
    | none =>
      rw [List.append_nil]
      exact .inl ⟨hs, hmono⟩
    | some usage => exact .inr ⟨rfl, hs.close _ _⟩
  | cons choice rest =>
    rw [hchoices] at hserial
    rw [toolCalls_single hsingle hchoices] at hmono ⊢
    simp only [laterChunk]
    cases hfinish : choice.finish with
    | none =>
      have hcontent := @follows_laterContent Usage ClaudeUsage state choice.delta hs.bounds
        (hserial choice rfl (.inl hfinish))
      have hlive := hcontent.done.trans hs.live
      simp only [andThen_apply, hlive, Bool.false_eq_true, if_false, List.append_nil]
      refine .inl ⟨hs.append hcontent, hcontent.introduced.trans ?_⟩
      push_cast
      omega
    | some reason =>
      cases husage : response.usage with
      | none =>
        simp only [update_apply, List.append_nil]
        exact .inl ⟨streaming_setFinishReason hs reason, hmono⟩
      | some usage =>
        have hs' := streaming_setFinishReason hs reason
        have hcontent := @follows_laterContent Usage ClaudeUsage
          (setFinishReason reason state) choice.delta hs'.bounds (hserial choice rfl (.inr (by rw [husage]; rfl)))
        simp only [andThen_apply, update_apply, List.nil_append,
          closeMessage_apply buildClaudeUsage husage, ← List.append_assoc]
        rw [List.append_assoc]
        exact .inr ⟨rfl, (hs'.append hcontent).close _ _⟩

/-! ### A series with a gap -/

variable {toolCall : ToolCallResponse}

theorem offset_eq {k : ℤ} (h : toolCall.index = some k) (i : ℕ) : toolCall.offset i = k := by
  unfold ToolCallResponse.offset
  rw [h]

theorem numbered_cons {rest : List ToolCallResponse} :
    Numbered g (toolCall :: rest) ↔ (if toolCall.function.name ≠ "" then toolCall.index = some (g : ℤ)
        else ∃ k < g, toolCall.index = some (k : ℤ)) ∧
      Numbered (if toolCall.function.name ≠ "" then g + 1 else g) rest := by
  simp only [Numbered]
  split_ifs <;> rfl

theorem each_toolFragment_state (fragments : List (ToolCallResponse × ℕ))
    (state : ClaudeConvertInfo Usage) : ∃ m, state.toolCallMaxIndexOffset ≤ m ∧
      (each toolFragment fragments state : Said ClaudeUsage _).2 = withMaxOffset m state := by
  induction fragments generalizing state with
  | nil => exact ⟨state.toolCallMaxIndexOffset, le_rfl, rfl⟩
  | cons fragment rest ih =>
    rw [each_cons, toolFragment_apply]
    obtain ⟨m, hm, hstate⟩ := ih (withMaxOffset (max (fragment.1.offset fragment.2) state.toolCallMaxIndexOffset) state)
    exact ⟨m, (le_max_right _ _).trans hm, hstate⟩

theorem offset_le_each {fragment : ToolCallResponse × ℕ} (h : fragment ∈ fragments) :
    fragment.1.offset fragment.2 ≤ (each toolFragment fragments state :
        Said ClaudeUsage _).2.toolCallMaxIndexOffset := by
  induction fragments generalizing state with
  | nil => cases h
  | cons head rest ih =>
    rw [each_cons, toolFragment_apply]
    rcases List.mem_cons.mp h with rfl | h
    · obtain ⟨m, hm, hstate⟩ := @each_toolFragment_state Usage ClaudeUsage rest
        (withMaxOffset (max (fragment.1.offset fragment.2) state.toolCallMaxIndexOffset) state)
      simp only [hstate]
      exact (le_max_left _ _).trans hm
    · exact ih h

theorem not_started (hn : n < g) (hnum : Numbered g (fragments.map Prod.fst))
    (state : ClaudeConvertInfo Usage) (kind : BlockKind) : .start (state.toolCallBaseIndex + n) kind ∉ blockEvents
      (each toolFragment fragments state : Said ClaudeUsage _).1 := by
  induction fragments generalizing g state with
  | nil => simp [blockEvents]
  | cons fragment rest ih =>
    rw [List.map_cons, numbered_cons] at hnum
    obtain ⟨hhead, hrest⟩ := hnum
    rw [each_cons, toolFragment_apply, blockEvents_append, List.mem_append]
    rintro (hmem | hmem)
    · -- the head starts a block only under the number of a new call
      by_cases hname : fragment.1.function.name ≠ ""
      · rw [if_pos hname] at hhead
        rw [offset_eq hhead] at hmem
        unfold fragmentEvents blockEvents at hmem
        rw [if_pos hname] at hmem
        split_ifs at hmem <;> simp [ClaudeResponse.blockEvent] at hmem <;> omega
      · unfold fragmentEvents blockEvents at hmem
        rw [if_neg hname] at hmem
        split_ifs at hmem <;> simp [ClaudeResponse.blockEvent] at hmem
    · refine ih ?_ hrest
        (withMaxOffset (max (fragment.1.offset fragment.2) state.toolCallMaxIndexOffset) state) hmem
      split_ifs <;> push_cast <;> omega

/-- A call of the running series, introduced before, whose block was never started. -/
def Poisoned (b : Blocks.Board BlockKind) (state : ClaudeConvertInfo Usage) (g : ℕ) : Prop :=
  ∃ n : ℤ, 0 ≤ n ∧ n ≤ state.toolCallMaxIndexOffset ∧ n < g ∧
    b (state.toolCallBaseIndex + n) = .fresh

/-- The events from `b` on fail, or leave a call of the series without a block. -/
def Spoilt (b : Blocks.Board BlockKind)
    (out : List (ClaudeResponse ClaudeUsage) × ClaudeConvertInfo Usage) (g : ℕ) : Prop :=
  ∀ b', Blocks.play b (blockEvents out.1) = some b' → Poisoned b' out.2 g

variable {b : Blocks.Board BlockKind}

theorem spoilt_of_fresh (h₀ : 0 ≤ n) (hn : n < g)
    (hmax : n ≤ (each toolFragment fragments state : Said ClaudeUsage _).2.toolCallMaxIndexOffset)
    (hnum : Numbered g (fragments.map Prod.fst)) (hfresh : b (state.toolCallBaseIndex + n) = .fresh) :
    Spoilt b (each toolFragment fragments state : Said ClaudeUsage _) (g + introductions (fragments.map Prod.fst)) := by
  intro b' hplay
  obtain ⟨m, hm, hstate⟩ := @each_toolFragment_state Usage ClaudeUsage fragments state
  refine ⟨n, h₀, hmax, by push_cast; omega, ?_⟩
  rw [hstate]
  exact play_other hplay hfresh (not_started hn hnum state)

/-- **Gap**: fragments that do not continue the series leave a call without a block. -/
theorem spoilt_fragments (hbase : 0 ≤ state.toolCallBaseIndex) (hn : 0 ≤ n) (hg : n ≤ g)
    (hmax : state.toolCallMaxIndexOffset = maxOffset n) (hnum : Numbered g (fragments.map Prod.fst))
    (h : ¬ Continues n fragments) : Spoilt (layout state.toolCallBaseIndex (state.toolCallBaseIndex + n) .toolUse)
      (each toolFragment fragments state : Said ClaudeUsage _) (g + introductions (fragments.map Prod.fst)) := by
  induction fragments generalizing n g state with
  | nil => exact absurd trivial h
  | cons fragment rest ih =>
    have hnum' := hnum
    rw [List.map_cons, numbered_cons] at hnum'
    obtain ⟨hhead, hrest⟩ := hnum'
    by_cases hok : if fragment.1.function.name ≠ "" then fragment.1.offset fragment.2 = n
        else 0 ≤ fragment.1.offset fragment.2 ∧ fragment.1.offset fragment.2 < n
    · have hbad : ¬ Continues (if fragment.1.function.name ≠ "" then n + 1 else n) rest :=
        fun hc => h (continues_cons.mpr ⟨hok, hc⟩)
      have hmax' : max (fragment.1.offset fragment.2) state.toolCallMaxIndexOffset =
          maxOffset (if fragment.1.function.name ≠ "" then n + 1 else n) := by
        rw [hmax]
        exact maxOffset_head hn hok
      have hspoilt := @ih (if fragment.1.function.name ≠ "" then n + 1 else n)
        (withMaxOffset (maxOffset (if fragment.1.function.name ≠ "" then n + 1 else n)) state)
        (if fragment.1.function.name ≠ "" then g + 1 else g) hbase
        (by split_ifs <;> omega) (by split_ifs <;> push_cast <;> omega) rfl hrest hbad
      intro b' hplay
      rw [each_cons, toolFragment_apply, hmax', blockEvents_append, play_append,
        (plays_fragment hbase hn hok).play] at hplay
      have hcount : g + introductions ((fragment :: rest).map Prod.fst) =
          (if fragment.1.function.name ≠ "" then g + 1 else g) + introductions (rest.map Prod.fst) := by
        rw [List.map_cons, introductions_cons]
        split_ifs <;> omega
      rw [hcount, each_cons, toolFragment_apply, hmax']
      exact hspoilt b' hplay
    · -- a new call skips the next number of the series, or an old one is not of the series
      have hoffset := @offset_le_each Usage ClaudeUsage state (fragment :: rest) fragment List.mem_cons_self
      by_cases hname : fragment.1.function.name ≠ ""
      · rw [if_pos hname] at hok hhead
        rw [offset_eq hhead] at hok hoffset
        refine spoilt_of_fresh hn (by omega) (by omega) hnum ?_
        exact layout_above (by omega) le_rfl
      · rw [if_neg hname] at hok hhead
        obtain ⟨k, hk, hindex⟩ := hhead
        rw [offset_eq hindex] at hok hoffset
        refine spoilt_of_fresh (n := (k : ℤ)) (by omega) (by omega) hoffset hnum ?_
        exact layout_above (by omega) (by omega)

/-- The stream is broken already, or will be when the running series is stopped. -/
def Doomed (h : List (ClaudeResponse ClaudeUsage)) (state : ClaudeConvertInfo Usage) (g : ℕ) : Prop :=
  ∀ b, Blocks.play Blocks.blank (blockEvents h) = some b →
    state.done = false ∧ state.lastMessagesType = .tools ∧ Poisoned b state g

theorem doomed_of_none (hnone : play blank (blockEvents h) = none) : Doomed h state g := by
  intro b hb
  rw [hnone] at hb
  cases hb

theorem not_valid_of_none (hnone : play blank (blockEvents h) = none) : ¬ ValidStream h := by
  rintro ⟨-, b, hb, -⟩
  rw [hnone] at hb
  cases hb

theorem blockEvents_stopOpenBlocks (h : state.lastMessagesType = .tools) :
    blockEvents (stopOpenBlocks state : List (ClaudeResponse ClaudeUsage)) =
      stops state.toolCallBaseIndex (state.toolCallMaxIndexOffset + 1).toNat := by
  unfold stopOpenBlocks
  rw [h]
  exact blockEvents_stops _ _

/-- **Stopping a series with a gap** breaks the stream, unless a block is started at the gap. -/
theorem play_stopped (hd : Doomed h state g) {rest : List (ClaudeResponse ClaudeUsage)}
    (hrest : ∀ i kind, .start i kind ∈ blockEvents rest → i = (advance state).index) :
    play blank (blockEvents (h ++ (stopOpenBlocks state ++ rest))) = none := by
  rw [blockEvents_append, play_append]
  cases hb : play blank (blockEvents h) with
  | none => rfl
  | some b =>
    obtain ⟨-, hlast, n, hn₀, hn, -, hfresh⟩ := hd b hb
    rw [bind_some, blockEvents_append, blockEvents_stopOpenBlocks hlast]
    refine play_stop_fresh hfresh (fun kind hmem => ?_) (List.mem_append_left _ ?_)
    · rcases List.mem_append.mp hmem with hmem | hmem
      · simp [stops] at hmem
      · have hindex := hrest _ kind hmem
        simp only [advance, hlast] at hindex
        omega
    · refine List.mem_map.mpr ⟨n.toNat, List.mem_range.mpr (by omega), ?_⟩
      rw [Int.toNat_of_nonneg hn₀]

theorem doomed_closed (hd : Doomed h state g) (reason : String) (usage : Option ClaudeUsage) :
    play blank (blockEvents (h ++ (stopOpenBlocks state ++ [.messageDelta reason usage, .messageStop]))) = none :=
  play_stopped hd (by simp [blockEvents, ClaudeResponse.blockEvent])

theorem doomed_switch {state' : ClaudeConvertInfo Usage} (hd : Doomed h state g)
    (block : ContentBlock) (delta : BlockDelta) : Doomed (h ++ switchEvents block delta state) state' g' :=
  doomed_of_none (play_stopped hd (by simp [blockEvents, ClaudeResponse.blockEvent]))

theorem Poisoned.mono (h : Poisoned b state g) (hg : g ≤ g') : Poisoned b state g' := by
  obtain ⟨n, h₁, h₂, h₃, h₄⟩ := h
  exact ⟨n, h₁, h₂, by omega, h₄⟩

theorem doomed_laterToolCalls {toolCalls : List ToolCallResponse} (hdone : (seriesState state).done = false)
    (hlast : (seriesState state).lastMessagesType = .tools)
    (hspoilt : ∀ b, play blank (blockEvents (h ++ seriesStops state)) = some b →
      Spoilt b (each toolFragment toolCalls.zipIdx (seriesState state) :
        Said ClaudeUsage _) g) : Doomed (h ++ (laterToolCalls toolCalls state).1)
      (laterToolCalls toolCalls state : Said ClaudeUsage _).2 g := by
  rw [laterToolCalls_apply, ← List.append_assoc]
  obtain ⟨m, -, hstate⟩ := @each_toolFragment_state Usage ClaudeUsage toolCalls.zipIdx (seriesState state)
  intro b' hb'
  rw [blockEvents_append, play_append] at hb'
  obtain ⟨b, hb, hplay⟩ := bind_eq_some_iff.mp hb'
  have hpoisoned := hspoilt b hb b' hplay
  rw [hstate] at hpoisoned ⊢
  exact ⟨hdone, hlast, hpoisoned⟩

/-- **Once doomed, always doomed**: no content mends the gap. -/
theorem doomed_laterContent (hd : Doomed h state g) (hnum : Numbered g delta.toolCalls) :
    Doomed (h ++ (laterContent delta state).1) (laterContent delta state : Said ClaudeUsage _).2
      (g + introductions delta.toolCalls) := by
  cases hb : play blank (blockEvents h) with
  | none =>
    refine doomed_of_none ?_
    rw [blockEvents_append]
    exact play_append_none hb _
  | some b =>
    obtain ⟨hlive, hlast, hpoisoned⟩ := hd b hb
    have hother : ∀ {last : LastMessagesType}, last ≠ .tools →
        state.lastMessagesType ≠ last := fun hne heq => hne (heq.symm.trans hlast)
    unfold laterContent
    by_cases htools : delta.toolCalls ≠ []
    · rw [if_pos htools]
      have hstate : seriesState state = state := if_pos hlast
      have hstops : (seriesStops state : List (ClaudeResponse ClaudeUsage)) = [] := if_pos hlast
      refine doomed_laterToolCalls (by rw [hstate]; exact hlive) (by rw [hstate]; exact hlast) ?_
      intro b' hb'
      rw [hstops, List.append_nil, hb] at hb'
      cases hb'
      obtain ⟨n, hn₀, hn, hng, hfresh⟩ := hpoisoned
      obtain ⟨m, hm, heach⟩ := @each_toolFragment_state Usage ClaudeUsage delta.toolCalls.zipIdx state
      have hspoilt := @spoilt_of_fresh Usage ClaudeUsage n state delta.toolCalls.zipIdx g b hn₀ hng
        (by rw [heach]; exact hn.trans hm) (by rw [zipIdx_fst]; exact hnum) hfresh
      rwa [zipIdx_fst, ← hstate] at hspoilt
    rw [if_neg htools]
    by_cases hreasoning : delta.getReasoningContent ≠ ""
    · rw [if_pos hreasoning, show andThen _ _ state = _ from laterBlock_switch (hother (by simp)) _ _]
      exact doomed_switch hd _ _
    rw [if_neg hreasoning]
    split_ifs with htext
    · rw [show andThen _ _ state = _ from laterBlock_switch (hother (by simp)) _ _]
      exact doomed_switch hd _ _
    · rw [skip_apply, List.append_nil]
      intro b' hb'
      obtain ⟨h₁, h₂, h₃⟩ := hd b' hb'
      exact ⟨h₁, h₂, h₃.mono (by omega)⟩

/-- **The fault**: a forwarded chunk that does not continue the series dooms the stream. -/
theorem doomed_of_not_continues (hs : Streaming h state) (hg : introduced state ≤ g)
    (hnum : Numbered g delta.toolCalls) (hbad : ¬ Continues (introduced state) delta.toolCalls.zipIdx) :
    Doomed (h ++ (laterContent delta state).1) (laterContent delta state : Said ClaudeUsage _).2
      (g + introductions delta.toolCalls) := by
  have htools : delta.toolCalls ≠ [] := by
    intro hnil
    rw [hnil] at hbad
    exact hbad trivial
  obtain ⟨hbounds, hlast, hdone, hn, hmax⟩ := seriesState_facts hs.bounds
  unfold laterContent
  rw [if_pos htools]
  refine doomed_laterToolCalls (hdone.trans hs.live) hlast fun b hb => ?_
  rw [blockEvents_append, play_append, hs.board, bind_some, (plays_seriesStops hs.bounds).play] at hb
  cases hb
  have hspoilt := @spoilt_fragments Usage ClaudeUsage (introduced state) (seriesState state)
    delta.toolCalls.zipIdx g hbounds.base hn hg hmax (by rw [zipIdx_fst]; exact hnum) hbad
  rwa [zipIdx_fst] at hspoilt

theorem doomed_setFinishReason (hd : Doomed h state g) (reason : String) :
    Doomed h (setFinishReason reason state) g := hd

theorem Doomed.mono (hd : Doomed h state g) (hg : g ≤ g') : Doomed h state g' := by
  intro b hb
  obtain ⟨h₁, h₂, h₃⟩ := hd b hb
  exact ⟨h₁, h₂, h₃.mono hg⟩

theorem laterBlock_done (last : LastMessagesType) (block : ContentBlock) (delta : BlockDelta)
    (state : ClaudeConvertInfo Usage) :
    (laterBlock last block delta state : Said ClaudeUsage _).2.done = state.done := by
  by_cases hlast : state.lastMessagesType = last
  · rw [laterBlock_same hlast]
  · rw [laterBlock_switch hlast]
    exact advance_done state

theorem laterContent_done (delta : ChoiceDelta) (state : ClaudeConvertInfo Usage) :
    (laterContent delta state : Said ClaudeUsage _).2.done = state.done := by
  unfold laterContent
  split_ifs
  · rw [laterToolCalls_apply]
    obtain ⟨m, -, hstate⟩ :=
      @each_toolFragment_state Usage ClaudeUsage delta.toolCalls.zipIdx (seriesState state)
    rw [hstate]
    show (seriesState state).done = state.done
    unfold seriesState
    split_ifs
    · rfl
    · exact advance_done state
  · exact laterBlock_done _ _ _ state
  · exact laterBlock_done _ _ _ state
  · rfl

theorem doomed_laterChunk (hlive : state.done = false) (hforward : choice.finish = none ∨ response.usage.isSome = true)
    (hcontent : ∀ reason, Doomed (h ++ (laterContent choice.delta (setFinishReason reason state)).1)
      (laterContent choice.delta (setFinishReason reason state) : Said ClaudeUsage _).2 g) :
    Doomed (h ++ (laterChunk buildClaudeUsage response choice state).1)
      (laterChunk buildClaudeUsage response choice state).2 g := by
  unfold laterChunk
  cases hfinish : choice.finish with
  | none =>
    have hd := hcontent state.finishReason
    have hsame : setFinishReason state.finishReason state = state := rfl
    rw [hsame] at hd
    have hlive' := (@laterContent_done Usage ClaudeUsage choice.delta state).trans hlive
    simp only [andThen_apply, hlive', Bool.false_eq_true, if_false, List.append_nil]
    exact hd
  | some reason =>
    cases husage : response.usage with
    | none => simp [hfinish, husage] at hforward
    | some usage =>
      simp only [andThen_apply, update_apply, List.nil_append,
        closeMessage_apply buildClaudeUsage husage, ← List.append_assoc]
      rw [List.append_assoc]
      exact doomed_of_none (doomed_closed (hcontent reason) _ _)

theorem doomed_laterResponse (hlive : state.done = false) (hd : Doomed h state g)
    (hsingle : response.choices.length ≤ 1) (hnum : Numbered g response.toolCalls) :
    Doomed (h ++ (laterResponse buildClaudeUsage response state).1)
      (laterResponse buildClaudeUsage response state).2 (g + introductions response.toolCalls) := by
  unfold laterResponse
  cases hchoices : response.choices with
  | nil =>
    simp only [usageChunk]
    cases response.usageOr state with
    | none =>
      rw [List.append_nil]
      exact hd.mono (by omega)
    | some usage => exact doomed_of_none (doomed_closed hd _ _)
  | cons choice rest =>
    rw [toolCalls_single hsingle hchoices] at hnum ⊢
    by_cases hforward : choice.finish = none ∨ response.usage.isSome = true
    · exact doomed_laterChunk buildClaudeUsage hlive hforward fun reason =>
        doomed_laterContent (doomed_setFinishReason hd reason) hnum
    · -- the chunk is not forwarded
      obtain ⟨hfinish, husage⟩ := not_or.mp hforward
      obtain ⟨reason, hreason⟩ := ne_none_iff_exists'.mp hfinish
      have husage' : response.usage = none := by simpa using husage
      simp only [laterChunk, hreason, husage', update_apply, List.append_nil]
      exact (doomed_setFinishReason hd reason).mono (by omega)

/-! ### The whole stream -/

theorem storeUsage_streaming (hs : Streaming h info.claudeConvertInfo) (stored : Option Usage) :
    Streaming h (storeUsage stored info).claudeConvertInfo :=
  ⟨hs.live, hs.opened, ⟨hs.bounds.index, hs.bounds.base, hs.bounds.offset⟩, hs.board⟩

variable (arrival : Arrival Usage)

def prepared (info : Info Usage) : Info Usage :=
  incrSendResponseCount (storeUsage arrival.stored info)

def withState (state : ClaudeConvertInfo Usage) (info : Info Usage) : Info Usage :=
  { info with claudeConvertInfo := state }

abbrev laterOf (info : Info Usage) :=
  laterResponse buildClaudeUsage arrival.response (prepared arrival info).claudeConvertInfo

theorem arrive_later (hcount : 1 ≤ info.sendResponseCount) (hlive : info.claudeConvertInfo.done = false)
    (arrival : Arrival Usage) : arrive buildClaudeUsage arrival info = ((laterOf buildClaudeUsage arrival info).1,
        withState (laterOf buildClaudeUsage arrival info).2 (prepared arrival info)) := by
  have hsecond : ¬ info.sendResponseCount + 1 = 1 := by omega
  simp [arrive, streamResponseOpenAI2Claude, laterOf, prepared, incrSendResponseCount, storeUsage, hlive,
    hsecond, withState]

theorem arrive_done (hdone : info.claudeConvertInfo.done = true) (arrival : Arrival Usage) :
    arrive buildClaudeUsage arrival info = ([], prepared arrival info) := by
  simp [arrive, streamResponseOpenAI2Claude, prepared, incrSendResponseCount, storeUsage, hdone]

def finish (buildClaudeUsage : Usage → ClaudeUsage) (stored : Option Usage) :
    Program (Info Usage) (ClaudeResponse ClaudeUsage) :=
  andThen (update (storeUsage stored)) (finalizeStreamResponseOpenAI2Claude buildClaudeUsage)

theorem finish_live (hlive : info.claudeConvertInfo.done = false) (stored : Option Usage) :
    ∃ reason usage, (finish buildClaudeUsage stored info).1 =
      stopOpenBlocks (storeUsage stored info).claudeConvertInfo ++ [.messageDelta reason usage, .messageStop] := by
  simp only [finish, finalizeStreamResponseOpenAI2Claude, andThen_apply, update_apply,
    storeUsage, hlive, Bool.false_eq_true, if_false, List.nil_append]
  exact ⟨_, _, rfl⟩

theorem finish_done (hdone : info.claudeConvertInfo.done = true) (stored : Option Usage) :
    (finish buildClaudeUsage stored info).1 = [] := by
  simp [finish, finalizeStreamResponseOpenAI2Claude, storeUsage, hdone]

def remainder (buildClaudeUsage : Usage → ClaudeUsage) (arrivals : List (Arrival Usage))
    (stored : Option Usage) : Program (Info Usage) (ClaudeResponse ClaudeUsage) :=
  andThen (each (arrive buildClaudeUsage) arrivals) (finish buildClaudeUsage stored)

theorem remainder_cons (arrivals : List (Arrival Usage)) (stored : Option Usage)
    (info : Info Usage) : (remainder buildClaudeUsage (arrival :: arrivals) stored info).1 =
      (arrive buildClaudeUsage arrival info).1 ++
        (remainder buildClaudeUsage arrivals stored (arrive buildClaudeUsage arrival info).2).1 := by
  simp [remainder, each_cons]

variable {arrivals : List (Arrival Usage)}

variable (stored : Option Usage)

/-- **Run, broken**: a doomed stream is not valid in the end. -/
theorem not_valid_of_doomed (hcount : 1 ≤ info.sendResponseCount) (hd : Doomed h info.claudeConvertInfo g)
    (hsingle : ∀ arrival ∈ arrivals, arrival.response.choices.length ≤ 1)
    (hnum : Numbered g (arrivals.flatMap fun arrival => arrival.response.toolCalls)) :
    ¬ ValidStream (h ++ (remainder buildClaudeUsage arrivals stored info).1) := by
  induction arrivals generalizing h info g with
  | nil =>
    simp only [remainder, andThen_apply, each_nil, List.nil_append]
    cases hdone : info.claudeConvertInfo.done with
    | false =>
      obtain ⟨reason, usage, hfinish⟩ := finish_live buildClaudeUsage hdone stored
      have hd' : Doomed h (storeUsage stored info).claudeConvertInfo g := hd
      rw [hfinish]
      exact not_valid_of_none (doomed_closed hd' reason usage)
    | true =>
      rw [finish_done buildClaudeUsage hdone, List.append_nil]
      refine not_valid_of_none (eq_none_iff_forall_ne_some.mpr fun b hb => ?_)
      have hlive := (hd b hb).1
      rw [hdone] at hlive
      cases hlive
  | cons arrival arrivals ih =>
    rw [List.flatMap_cons] at hnum
    obtain ⟨hhead, hrest⟩ := numbered_append hnum
    obtain ⟨hsingle₁, hsingle'⟩ := List.forall_mem_cons.mp hsingle
    have hcount' : 1 ≤ (prepared arrival info).sendResponseCount := Int.le_add_one hcount
    have hd' : Doomed h (prepared arrival info).claudeConvertInfo g := hd
    rw [remainder_cons, ← List.append_assoc]
    cases hdone : info.claudeConvertInfo.done with
    | false =>
      have hlive : (prepared arrival info).claudeConvertInfo.done = false := hdone
      have hdoomed := doomed_laterResponse buildClaudeUsage hlive hd' hsingle₁ hhead
      rw [arrive_later buildClaudeUsage hcount hdone]
      exact @ih (withState _ (prepared arrival info)) _ _ hcount' hdoomed hsingle' hrest
    | true =>
      rw [arrive_done buildClaudeUsage hdone, List.append_nil]
      exact ih hcount' (hd'.mono (by omega)) hsingle' hrest

theorem not_serial {arrival : Arrival Usage} (h : ¬ Serial info arrival) :
    ∃ choice ∈ arrival.response.choices.head?, (choice.finish = none ∨ arrival.response.usage.isSome = true) ∧
        ¬ Continues (introduced info.claudeConvertInfo) choice.delta.toolCalls.zipIdx := by
  by_contra hno
  refine h fun _ _ choice hchoice hforward => ?_
  by_contra hbad
  exact hno ⟨choice, hchoice, hforward, hbad⟩

/-- **Run**: from an open message on, the stream is valid exactly if every chunk continues the series
it finds. -/
theorem valid_iff_serial (hcount : 1 ≤ info.sendResponseCount) (ha : Alive h info.claudeConvertInfo g)
    (hsingle : ∀ arrival ∈ arrivals, arrival.response.choices.length ≤ 1)
    (hnum : Numbered g (arrivals.flatMap fun arrival => arrival.response.toolCalls)) :
    ValidStream (h ++ (remainder buildClaudeUsage arrivals stored info).1) ↔
      StepSys.Along (after (arrive buildClaudeUsage)) Serial info arrivals := by
  induction arrivals generalizing h info g with
  | nil =>
    simp only [remainder, andThen_apply, each_nil, List.nil_append]
    refine iff_of_true ?_ trivial
    rcases ha with ⟨hs, -⟩ | ⟨hdone, hvalid⟩
    · obtain ⟨reason, usage, hfinish⟩ := finish_live buildClaudeUsage hs.live stored
      rw [hfinish]
      exact (storeUsage_streaming hs stored).close reason usage
    · rw [finish_done buildClaudeUsage hdone, List.append_nil]
      exact hvalid
  | cons arrival arrivals ih =>
    rw [List.flatMap_cons] at hnum
    obtain ⟨hhead, hrest⟩ := numbered_append hnum
    obtain ⟨hsingle₁, hsingle'⟩ := List.forall_mem_cons.mp hsingle
    have hcount' : 1 ≤ (prepared arrival info).sendResponseCount := Int.le_add_one hcount
    rw [remainder_cons, ← List.append_assoc, StepSys.Along, after]
    rcases ha with ⟨hs, hg⟩ | ⟨hdone, hvalid⟩
    · have hs' : Streaming h (prepared arrival info).claudeConvertInfo :=
        storeUsage_streaming hs arrival.stored
      rw [arrive_later buildClaudeUsage hcount hs.live]
      by_cases hserial : Serial info arrival
      · have halive := alive_laterResponse buildClaudeUsage hs' hg hsingle₁ (hserial hs.live (by omega))
        have hiff := @ih (withState (laterOf buildClaudeUsage arrival info).2 (prepared arrival info)) _ _
          hcount' halive hsingle' hrest
        exact ⟨fun hvalid => ⟨hserial, hiff.mp hvalid⟩, fun hrun => hiff.mpr hrun.2⟩
      · refine iff_of_false ?_ fun hrun => hserial hrun.1
        obtain ⟨choice, hchoice, hforward, hbad⟩ := not_serial hserial
        obtain ⟨rest, hchoices⟩ : ∃ rest, arrival.response.choices = choice :: rest :=
          List.head?_eq_some_iff.mp hchoice
        have hcalls := toolCalls_single hsingle₁ hchoices
        have hdoomed : Doomed (h ++ (laterOf buildClaudeUsage arrival info).1)
            (laterOf buildClaudeUsage arrival info).2 (g + introductions arrival.response.toolCalls) := by
          simp only [laterOf, laterResponse, hchoices]
          rw [hcalls] at hhead ⊢
          exact doomed_laterChunk buildClaudeUsage hs'.live hforward fun reason =>
            doomed_of_not_continues (streaming_setFinishReason hs' reason) hg hhead hbad
        exact @not_valid_of_doomed Usage ClaudeUsage buildClaudeUsage
          (withState _ (prepared arrival info)) _ _ arrivals stored hcount' hdoomed hsingle' hrest
    · have hserial : Serial info arrival := fun hlive => by
        rw [hdone] at hlive
        cases hlive
      rw [arrive_done buildClaudeUsage hdone, List.append_nil]
      have halive : Alive h (prepared arrival info).claudeConvertInfo
          (g + introductions arrival.response.toolCalls) := .inr ⟨hdone, hvalid⟩
      rw [ih hcount' halive hsingle' hrest]
      exact ⟨fun hrun => ⟨hserial, hrun⟩, fun hrun => hrun.2⟩

variable (estimatePromptTokens : ℤ)

theorem claudeStream_eq (arrivals : List (Arrival Usage)) (stored : Option Usage) :
    claudeStream buildClaudeUsage estimatePromptTokens arrivals stored =
      (remainder buildClaudeUsage arrivals stored { estimatePromptTokens }).1 := rfl

variable (arrival : Arrival Usage)

abbrev firstOf :=
  firstChunk buildClaudeUsage arrival.response estimatePromptTokens { usage := arrival.stored.or none }

abbrev opened : Info Usage :=
  withState (firstOf buildClaudeUsage estimatePromptTokens arrival).2
    { sendResponseCount := 1, estimatePromptTokens }

theorem arrive_first : arrive buildClaudeUsage arrival { estimatePromptTokens } =
      ((firstOf buildClaudeUsage estimatePromptTokens arrival).1,
        opened buildClaudeUsage estimatePromptTokens arrival) := by
  simp [arrive, streamResponseOpenAI2Claude, firstOf, opened, incrSendResponseCount, storeUsage, withState]

/-- **Validity**: for every stream of chunks with one choice each whose tool calls are each introduced by one
fragment with the name and numbered in that order, the converted stream is a valid stream of Claude events
exactly if there is a first chunk and every later one that is forwarded continues the series of tool calls
it finds open, or starts a new one at number 0. -/
theorem claudeStream_valid_iff (buildClaudeUsage : Usage → ClaudeUsage) (estimatePromptTokens : ℤ)
    (arrivals : List (Arrival Usage)) (stored : Option Usage)
    (hsingle : ∀ arrival ∈ arrivals, arrival.response.choices.length ≤ 1)
    (hnum : Numbered 0 (arrivals.flatMap fun arrival => arrival.response.toolCalls)) :
    ValidStream (claudeStream buildClaudeUsage estimatePromptTokens arrivals stored) ↔
      arrivals ≠ [] ∧ StepSys.Along (after (arrive buildClaudeUsage)) Serial
        { estimatePromptTokens := estimatePromptTokens } arrivals := by
  rw [claudeStream_eq]
  cases arrivals with
  | nil =>
    refine iff_of_false ?_ fun h => h.1 rfl
    rintro ⟨⟨id, model, tokens, body, reason, usage, hframed, -⟩, -⟩
    simp [remainder, finish, finalizeStreamResponseOpenAI2Claude, storeUsage, stopOpenBlocks]
      at hframed
  | cons arrival arrivals =>
    rw [List.flatMap_cons] at hnum
    obtain ⟨hhead, hrest⟩ := numbered_append hnum
    rw [Nat.zero_add] at hrest
    have hserial : Serial { estimatePromptTokens := estimatePromptTokens } arrival :=
      fun _ hcount => absurd rfl hcount
    obtain ⟨hsingle₁, hsingle'⟩ := List.forall_mem_cons.mp hsingle
    have halive := alive_firstChunk buildClaudeUsage hsingle₁ hhead estimatePromptTokens
      (arrival.stored.or none)
    have hiff := @valid_iff_serial Usage ClaudeUsage buildClaudeUsage
      (opened buildClaudeUsage estimatePromptTokens arrival) _ _ arrivals stored le_rfl halive hsingle' hrest
    rw [remainder_cons, StepSys.Along, after, arrive_first]
    exact ⟨fun hvalid => ⟨List.cons_ne_nil _ _, hserial, hiff.mp hvalid⟩,
      fun hrun => hiff.mpr hrun.2.2⟩

end valid

/-! ### Two streams -/

def chunkOf (delta : ChoiceDelta) (finishReason : Option String := none)
    (usage : Option ℕ := none) : Arrival ℕ :=
  { response := { choices := [{ delta, finishReason }], usage } }

def toolFragmentOf (index : ℤ) (name arguments : String) : ToolCallResponse :=
  { index := some index, function := { name, arguments } }

def parallelCalls : List (Arrival ℕ) :=
  [chunkOf { reasoningContent := some "r" }, chunkOf { content := some "t" },
    chunkOf { toolCalls := [toolFragmentOf 0 "lookup" "", toolFragmentOf 1 "search" "a"] },
    chunkOf { toolCalls := [toolFragmentOf 0 "" "b", toolFragmentOf 1 "" "c"] },
    chunkOf {} (some "tool_calls") (some 7)]

theorem parallelCalls_valid : ValidStream (claudeStream (fun n : ℕ => n) 0 parallelCalls none) :=
  (claudeStream_valid_iff (fun n : ℕ => n) 0 parallelCalls none (by decide)
    (by decide)).mpr ⟨by decide, by decide⟩

def textBetweenCalls : List (Arrival ℕ) :=
  [chunkOf { toolCalls := [toolFragmentOf 0 "lookup" "a"] }, chunkOf { content := some "t" },
    chunkOf { toolCalls := [toolFragmentOf 1 "search" "b"] },
    chunkOf {} (some "tool_calls") (some 7)]

/-- The second call is started at block 3; block 2, which nothing started, is stopped with it. -/
theorem textBetweenCalls_invalid : (∀ arrival ∈ textBetweenCalls, arrival.response.choices.length ≤ 1) ∧
      Numbered 0 (textBetweenCalls.flatMap fun arrival => arrival.response.toolCalls) ∧
      ¬ ValidStream (claudeStream (fun n : ℕ => n) 0 textBetweenCalls none) :=
  ⟨by decide, by decide, not_valid_of_none (Option.isNone_iff_eq_none.mp (by decide))⟩

end WynthApi.Relay
