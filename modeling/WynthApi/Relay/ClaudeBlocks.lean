import WynthApi.Lib.Blocks
import WynthApi.Relay.ClaudeStream

/-!
# The content blocks of the converted stream

`ValidStream` is the protocol.  The converter keeps to it as long as the open blocks are the ones its state
describes (`boardOf`): closed below the current index, one block of text or thinking, or a gapless series of
tool blocks.  Every piece of the conversion keeps that (`Follows`); the tool calls of a chunk do if each
fragment introduces the next call of the running series or continues one of them (`Continues`).
-/

namespace WynthApi.Relay

open Emit List Blocks

/-! ### The protocol -/

inductive BlockKind
  | text
  | thinking
  | toolUse
  deriving DecidableEq, Repr

def ContentBlock.kind : ContentBlock → BlockKind
  | .text => .text
  | .thinking => .thinking
  | .toolUse _ _ => .toolUse

def BlockDelta.kind : BlockDelta → BlockKind
  | .text _ => .text
  | .thinking _ => .thinking
  | .inputJson _ => .toolUse

section protocol

variable {ClaudeUsage : Type}

def ClaudeResponse.blockEvent : ClaudeResponse ClaudeUsage → Option (Blocks.Event BlockKind)
  | .contentBlockStart index block => some (.start index block.kind)
  | .contentBlockDelta index delta => some (.delta index delta.kind)
  | .contentBlockStop index => some (.stop index)
  | _ => none

def blockEvents (es : List (ClaudeResponse ClaudeUsage)) : List (Blocks.Event BlockKind) :=
  es.filterMap ClaudeResponse.blockEvent

/-- A valid stream: the message is opened, then come events of content blocks only, then it is ended; each block
is opened once, filled while it is open with deltas of its kind, and closed once. -/
structure ValidStream (es : List (ClaudeResponse ClaudeUsage)) : Prop where
  framed : ∃ id model tokens body reason usage,
    es = .messageStart id model tokens :: (body ++ [.messageDelta reason usage, .messageStop]) ∧
      ∀ e ∈ body, e.blockEvent.isSome = true
  blocks : Blocks.Complete (blockEvents es)

theorem blockEvents_append (es fs : List (ClaudeResponse ClaudeUsage)) :
    blockEvents (es ++ fs) = blockEvents es ++ blockEvents fs := filterMap_append

end protocol

/-! ### The domain: how the tool calls of a stream are numbered -/

/-- After `n` calls were introduced, each fragment introduces the next one under its name or
continues an earlier one without a name. -/
def Numbered : ℕ → List ToolCallResponse → Prop
  | _, [] => True
  | n, toolCall :: rest =>
    if toolCall.function.name ≠ "" then toolCall.index = some (n : ℤ) ∧ Numbered (n + 1) rest
    else (∃ k < n, toolCall.index = some (k : ℤ)) ∧ Numbered n rest

instance Numbered.decidable : (n : ℕ) → (toolCalls : List ToolCallResponse) →
    Decidable (Numbered n toolCalls)
  | _, [] => inferInstanceAs (Decidable True)
  | n, _ :: rest =>
    have := Numbered.decidable (n + 1) rest
    have := Numbered.decidable n rest
    inferInstanceAs (Decidable (@ite Prop _ _ (_ ∧ _) (_ ∧ _)))

def introductions (toolCalls : List ToolCallResponse) : ℕ :=
  toolCalls.countP fun toolCall => toolCall.function.name ≠ ""

theorem numbered_append {n : ℕ} {ts us : List ToolCallResponse} (h : Numbered n (ts ++ us)) :
    Numbered n ts ∧ Numbered (n + introductions ts) us := by
  induction ts generalizing n with
  | nil => exact ⟨trivial, h⟩
  | cons t ts ih =>
    simp only [cons_append, Numbered] at h ⊢
    by_cases hname : t.function.name ≠ ""
    · rw [if_pos hname] at h ⊢
      obtain ⟨h₁, h₂⟩ := ih h.2
      have hcount : introductions (t :: ts) = introductions ts + 1 := by simp [introductions, hname]
      rw [hcount]
      exact ⟨⟨h.1, h₁⟩, by rwa [show n + (introductions ts + 1) = n + 1 + introductions ts by omega]⟩
    · rw [if_neg hname] at h ⊢
      obtain ⟨h₁, h₂⟩ := ih h.2
      have hcount : introductions (t :: ts) = introductions ts := by
        simp only [introductions, countP_cons]
        simp [hname]
      rw [hcount]
      exact ⟨⟨h.1, h₁⟩, h₂⟩

/-! ### The condition -/

/-- When `n` calls of the running series were introduced, each fragment introduces the next one or
continues one of them. -/
def Continues : ℤ → List (ToolCallResponse × ℕ) → Prop
  | _, [] => True
  | n, fragment :: rest =>
    if fragment.1.function.name ≠ "" then
      fragment.1.offset fragment.2 = n ∧ Continues (n + 1) rest
    else (0 ≤ fragment.1.offset fragment.2 ∧ fragment.1.offset fragment.2 < n) ∧ Continues n rest

instance Continues.decidable : (n : ℤ) → (fragments : List (ToolCallResponse × ℕ)) →
    Decidable (Continues n fragments)
  | _, [] => inferInstanceAs (Decidable True)
  | n, _ :: rest =>
    have := Continues.decidable (n + 1) rest
    have := Continues.decidable n rest
    inferInstanceAs (Decidable (@ite Prop _ _ (_ ∧ _) (_ ∧ _)))

section blocks

variable {Usage ClaudeUsage : Type}

def introduced (state : ClaudeConvertInfo Usage) : ℤ :=
  if state.lastMessagesType = .tools then state.toolCallMaxIndexOffset + 1 else 0

/-- A later chunk whose tool calls are forwarded continues the running series of tool calls, or
starts a new one with the calls numbered from 0. -/
def Serial (info : Info Usage) (arrival : Arrival Usage) : Prop :=
  info.claudeConvertInfo.done = false → info.sendResponseCount ≠ 0 →
    ∀ choice ∈ arrival.response.choices.head?,
      (choice.finish = none ∨ arrival.response.usage.isSome = true) →
        Continues (introduced info.claudeConvertInfo) choice.delta.toolCalls.zipIdx
  deriving Decidable

/-! ### The open blocks that the state describes -/

structure Bounds (state : ClaudeConvertInfo Usage) : Prop where
  index : 0 ≤ state.index
  base : 0 ≤ state.toolCallBaseIndex
  offset : 0 ≤ state.toolCallMaxIndexOffset

def boardOf (state : ClaudeConvertInfo Usage) : Blocks.Board BlockKind :=
  match state.lastMessagesType with
  | .none => Blocks.layout state.index state.index .text
  | .text => Blocks.layout state.index (state.index + 1) .text
  | .thinking => Blocks.layout state.index (state.index + 1) .thinking
  | .tools =>
    Blocks.layout state.toolCallBaseIndex
      (state.toolCallBaseIndex + state.toolCallMaxIndexOffset + 1) .toolUse

structure Plays (b : Blocks.Board BlockKind) (es : List (ClaudeResponse ClaudeUsage))
    (b' : Blocks.Board BlockKind) : Prop where
  only : ∀ e ∈ es, e.blockEvent.isSome = true
  play : Blocks.play b (blockEvents es) = some b'

theorem Plays.nil (b : Board BlockKind) : Plays b ([] : List (ClaudeResponse ClaudeUsage)) b :=
  ⟨by simp, rfl⟩

variable {b b' : Blocks.Board BlockKind}

theorem Plays.append {b'' : Board BlockKind}
    {es fs : List (ClaudeResponse ClaudeUsage)} (h : Plays b es b') (h' : Plays b' fs b'') :
    Plays b (es ++ fs) b'' := by
  refine ⟨fun e he => ?_, ?_⟩
  · rcases mem_append.mp he with he | he
    · exact h.only e he
    · exact h'.only e he
  · rw [blockEvents_append, play_append, h.play]
    exact h'.play

theorem Plays.single {e : ClaudeResponse ClaudeUsage}
    {ev : Event BlockKind} (he : e.blockEvent = some ev) (h : step b ev = some b') : Plays b [e] b' := by
  refine ⟨by simp [he], ?_⟩
  simp [blockEvents, he, play_cons, h]

theorem advance_done (state : ClaudeConvertInfo Usage) : (advance state).done = state.done := by
  unfold advance
  cases state.lastMessagesType <;> rfl

variable {delta : BlockDelta} {last : LastMessagesType} {n : ℤ} {state : ClaudeConvertInfo Usage}
  {kind : BlockKind} {block : ContentBlock}

theorem bounds_advance (h : Bounds state) : Bounds (advance state) := by
  obtain ⟨h₁, h₂, h₃⟩ := h
  unfold advance
  cases state.lastMessagesType with
  | none => exact ⟨h₁, h₂, h₃⟩
  | text | thinking => exact ⟨show 0 ≤ state.index + 1 by omega, h₂, h₃⟩
  | tools =>
    exact ⟨show 0 ≤ state.toolCallBaseIndex + state.toolCallMaxIndexOffset + 1 by omega, le_rfl, le_rfl⟩

theorem blockEvents_stops (base : ℤ) (n : ℕ) : blockEvents ((List.range n).map fun (offset : ℕ) =>
      (generateStopBlock (base + offset) : ClaudeResponse ClaudeUsage)) = stops base n := by
  unfold blockEvents stops
  rw [filterMap_map, ← filterMap_eq_map]
  rfl

/-- **Closing**: the stops close what is open, and nothing below the next free index is open. -/
theorem plays_stopOpenBlocks (h : Bounds state) (k : BlockKind) :
    Plays (boardOf state) (stopOpenBlocks state : List (ClaudeResponse ClaudeUsage))
      (layout (advance state).index (advance state).index k) := by
  have hone : ∀ kind, Plays (layout state.index (state.index + 1) kind)
      [(generateStopBlock state.index : ClaudeResponse ClaudeUsage)]
      (layout (state.index + 1) (state.index + 1) k) := fun kind => by
    rw [layout_kind (state.index + 1) k kind]
    exact .single rfl (step_stop h.index (by omega))
  unfold boardOf stopOpenBlocks advance
  cases state.lastMessagesType with
  | none =>
    simp only
    rw [layout_kind state.index .text k]
    exact .nil _
  | text => exact hone .text
  | thinking => exact hone .thinking
  | tools =>
    have hoffset := h.offset
    have hcount : ((state.toolCallMaxIndexOffset + 1).toNat : ℤ) =
        state.toolCallMaxIndexOffset + 1 := Int.toNat_of_nonneg (by omega)
    refine ⟨fun e he => ?_, ?_⟩
    · obtain ⟨offset, -, rfl⟩ := mem_map.mp he
      rfl
    · rw [blockEvents_stops]
      have hplay := play_stops (k := BlockKind.toolUse) (state.toolCallMaxIndexOffset + 1).toNat h.base
      rw [hcount, ← Int.add_assoc] at hplay
      rw [hplay, layout_kind _ .toolUse k]

/-! ### Text and thinking -/

/-- `last` is the type of the blocks of one kind, of which one is open at a time. -/
def SingleKind (last : LastMessagesType) (kind : BlockKind) : Prop :=
  (last = .text ∧ kind = .text) ∨ (last = .thinking ∧ kind = .thinking)

theorem boardOf_single (hk : SingleKind last kind) (h : state.lastMessagesType = last) :
    boardOf state = layout state.index (state.index + 1) kind := by
  unfold boardOf
  rw [h]
  rcases hk with ⟨rfl, rfl⟩ | ⟨rfl, rfl⟩ <;> rfl

def switchedTo (last : LastMessagesType) (state : ClaudeConvertInfo Usage) : ClaudeConvertInfo Usage :=
  { advance state with lastMessagesType := last }

def switchEvents (block : ContentBlock) (delta : BlockDelta) (state : ClaudeConvertInfo Usage) :
    List (ClaudeResponse ClaudeUsage) :=
  stopOpenBlocks state ++ [.contentBlockStart (advance state).index block,
    .contentBlockDelta (advance state).index delta]

theorem plays_switch (hk : SingleKind last kind) (hblock : block.kind = kind) (hdelta : delta.kind = kind)
    (h : Bounds state) : Plays (boardOf state) (switchEvents block delta state : List (ClaudeResponse ClaudeUsage))
      (boardOf (switchedTo last state)) := by
  have hindex := (bounds_advance h).index
  have hboard : boardOf (switchedTo last state) = layout (advance state).index ((advance state).index + 1) kind :=
    boardOf_single hk rfl
  have hopen : Plays (layout (advance state).index (advance state).index kind)
      [(.contentBlockStart (advance state).index block : ClaudeResponse ClaudeUsage)]
      (layout (advance state).index ((advance state).index + 1) kind) := by
    refine .single rfl ?_
    rw [hblock]
    exact step_start hindex le_rfl
  have hfill : Plays (layout (advance state).index ((advance state).index + 1) kind)
      [(.contentBlockDelta (advance state).index delta : ClaudeResponse ClaudeUsage)]
      (layout (advance state).index ((advance state).index + 1) kind) := by
    refine .single rfl ?_
    rw [hdelta]
    exact step_delta le_rfl (by omega)
  rw [hboard]
  exact (plays_stopOpenBlocks h kind).append (hopen.append hfill)

theorem plays_delta (hk : SingleKind last kind) (hdelta : delta.kind = kind)
    (h : state.lastMessagesType = last) : Plays (boardOf state)
      [(.contentBlockDelta state.index delta : ClaudeResponse ClaudeUsage)] (boardOf state) := by
  rw [boardOf_single hk h]
  refine .single rfl ?_
  rw [hdelta]
  exact step_delta le_rfl (by omega)

/-! ### A series of tool calls -/

def withMaxOffset (offset : ℤ) (state : ClaudeConvertInfo Usage) : ClaudeConvertInfo Usage :=
  { state with toolCallMaxIndexOffset := offset }

def maxOffset (n : ℤ) : ℤ := if 0 < n then n - 1 else 0

def fragmentEvents (i : ℤ) (toolCall : ToolCallResponse) : List (ClaudeResponse ClaudeUsage) :=
  (if toolCall.function.name ≠ "" then
      [.contentBlockStart i (.toolUse toolCall.id toolCall.function.name)] else []) ++
    (if toolCall.function.arguments ≠ "" then
      [.contentBlockDelta i (.inputJson toolCall.function.arguments)] else [])

abbrev Said (ClaudeUsage σ : Type) := List (ClaudeResponse ClaudeUsage) × σ

theorem toolFragment_apply (fragment : ToolCallResponse × ℕ) (state : ClaudeConvertInfo Usage) :
    (toolFragment fragment state : Said ClaudeUsage _) =
      (fragmentEvents (state.toolCallBaseIndex + fragment.1.offset fragment.2) fragment.1,
        withMaxOffset (max (fragment.1.offset fragment.2) state.toolCallMaxIndexOffset) state) := by
  unfold toolFragment fragmentEvents withMaxOffset
  simp only [Prod.mk.injEq, true_and, ClaudeConvertInfo.mk.injEq]
  split_ifs <;> omega

variable {offset : ℤ}

theorem plays_fragment {base : ℤ} (hbase : 0 ≤ base) (hn : 0 ≤ n) {toolCall : ToolCallResponse}
    (h : if toolCall.function.name ≠ "" then offset = n else 0 ≤ offset ∧ offset < n) :
    Plays (layout base (base + n) .toolUse)
      (fragmentEvents (base + offset) toolCall : List (ClaudeResponse ClaudeUsage)) (layout base
        (base + if toolCall.function.name ≠ "" then n + 1 else n) .toolUse) := by
  -- the arguments go to a block that is open once the fragment's own call is introduced
  have hargs : ∀ m, 0 ≤ offset → offset < m → Plays (layout base (base + m) .toolUse)
      (if toolCall.function.arguments ≠ "" then
        [(.contentBlockDelta (base + offset) (.inputJson toolCall.function.arguments) :
          ClaudeResponse ClaudeUsage)] else [])
      (layout base (base + m) .toolUse) := fun m h₁ h₂ => by
    split_ifs
    · exact .single rfl (step_delta (by omega) (by omega))
    · exact .nil _
  unfold fragmentEvents
  by_cases hname : toolCall.function.name ≠ ""
  · rw [if_pos hname] at h
    rw [if_pos hname, if_pos hname]
    subst h
    have hstart : Plays (layout base (base + offset) .toolUse)
        [(.contentBlockStart (base + offset) (.toolUse toolCall.id toolCall.function.name) :
          ClaudeResponse ClaudeUsage)] (layout base (base + (offset + 1)) .toolUse) := by
      rw [← Int.add_assoc]
      exact .single rfl (step_start hbase (by omega))
    exact hstart.append (hargs (offset + 1) hn (by omega))
  · rw [if_neg hname] at h
    rw [if_neg hname, if_neg hname]
    exact (Plays.nil _).append (hargs n h.1 h.2)

theorem introductions_cons (toolCall : ToolCallResponse) (rest : List ToolCallResponse) :
    introductions (toolCall :: rest) = (if toolCall.function.name ≠ "" then 1 else 0) + introductions rest := by
  unfold introductions
  rw [countP_cons]
  by_cases h : toolCall.function.name ≠ "" <;> simp [h, Nat.add_comm]

theorem continues_cons {fragment : ToolCallResponse × ℕ} {rest : List (ToolCallResponse × ℕ)} :
    Continues n (fragment :: rest) ↔ (if fragment.1.function.name ≠ "" then fragment.1.offset fragment.2 = n
        else 0 ≤ fragment.1.offset fragment.2 ∧ fragment.1.offset fragment.2 < n) ∧
      Continues (if fragment.1.function.name ≠ "" then n + 1 else n) rest := by
  simp only [Continues]
  split_ifs <;> rfl

theorem maxOffset_head {named : Prop} [Decidable named] (hn : 0 ≤ n)
    (h : if named then offset = n else 0 ≤ offset ∧ offset < n) :
    max offset (maxOffset n) = maxOffset (if named then n + 1 else n) := by
  unfold maxOffset
  split_ifs at h ⊢ <;> omega

/-- **Loop**: fragments that continue the series keep its blocks gapless. -/
theorem plays_fragments {fragments : List (ToolCallResponse × ℕ)} (hbase : 0 ≤ state.toolCallBaseIndex)
    (hn : 0 ≤ n) (hmax : state.toolCallMaxIndexOffset = maxOffset n) (h : Continues n fragments) :
    Plays (layout state.toolCallBaseIndex (state.toolCallBaseIndex + n) .toolUse)
        (each toolFragment fragments state : Said ClaudeUsage _).1 (layout state.toolCallBaseIndex
          (state.toolCallBaseIndex + (n + introductions (fragments.map Prod.fst))) .toolUse) ∧
      (each toolFragment fragments state : Said ClaudeUsage _).2 =
        withMaxOffset (maxOffset (n + introductions (fragments.map Prod.fst))) state := by
  induction fragments generalizing n state with
  | nil =>
    simp only [map_nil, introductions, countP_nil, each_nil]
    refine ⟨?_, ?_⟩
    · simpa using Plays.nil _
    · simp [withMaxOffset, ← hmax]
  | cons fragment rest ih =>
    obtain ⟨hhead, hrest⟩ := continues_cons.mp h
    have hcount : n + (introductions ((fragment :: rest).map Prod.fst) : ℤ) =
        (if fragment.1.function.name ≠ "" then n + 1 else n) + introductions (rest.map Prod.fst) := by
      rw [map_cons, introductions_cons]
      split_ifs <;> push_cast <;> omega
    have hmax' : max (fragment.1.offset fragment.2) state.toolCallMaxIndexOffset =
        maxOffset (if fragment.1.function.name ≠ "" then n + 1 else n) := by
      rw [hmax]
      exact maxOffset_head hn hhead
    rw [each_cons, toolFragment_apply, hcount, hmax']
    obtain ⟨hplays, hstate⟩ := @ih (if fragment.1.function.name ≠ "" then n + 1 else n)
      (withMaxOffset (maxOffset (if fragment.1.function.name ≠ "" then n + 1 else n)) state) hbase
      (by split_ifs <;> omega) rfl hrest
    exact ⟨(plays_fragment hbase hn hhead).append hplays, hstate⟩

def seriesState (state : ClaudeConvertInfo Usage) : ClaudeConvertInfo Usage :=
  if state.lastMessagesType = .tools then state
  else
    { advance state with
      toolCallBaseIndex := (advance state).index, toolCallMaxIndexOffset := 0
      lastMessagesType := .tools }

def seriesStops (state : ClaudeConvertInfo Usage) : List (ClaudeResponse ClaudeUsage) :=
  if state.lastMessagesType = .tools then [] else stopOpenBlocks state

variable (toolCalls : List ToolCallResponse)

theorem laterToolCalls_apply (state : ClaudeConvertInfo Usage) :
    (laterToolCalls toolCalls state : Said ClaudeUsage _) =
      (seriesStops state ++ (each toolFragment toolCalls.zipIdx (seriesState state)).1,
        leaveTools (each toolFragment toolCalls.zipIdx (seriesState state) : Said ClaudeUsage _).2) := by
  unfold laterToolCalls seriesState seriesStops unlessLast
  by_cases h : state.lastMessagesType = .tools
  · have hstate : enterTools state = state := by
      unfold enterTools
      rw [← h]
    simp [h, hstate]
  · simp [h, openSeries, stopOpenBlocksAndAdvance, enterTools]

theorem seriesState_facts (h : Bounds state) :
    Bounds (seriesState state) ∧ (seriesState state).lastMessagesType = .tools ∧
      (seriesState state).done = state.done ∧ 0 ≤ introduced state ∧
      (seriesState state).toolCallMaxIndexOffset = maxOffset (introduced state) := by
  unfold seriesState introduced maxOffset
  have hoffset := h.offset
  by_cases hlast : state.lastMessagesType = .tools
  · rw [if_pos hlast, if_pos hlast, if_pos (by omega)]
    exact ⟨h, hlast, rfl, by omega, by omega⟩
  · rw [if_neg hlast, if_neg hlast]
    have hadvance := bounds_advance h
    exact ⟨⟨hadvance.index, hadvance.index, le_rfl⟩, rfl, advance_done state, le_rfl, by simp⟩

theorem plays_seriesStops (h : Bounds state) :
    Plays (boardOf state) (seriesStops state : List (ClaudeResponse ClaudeUsage))
      (layout (seriesState state).toolCallBaseIndex
        ((seriesState state).toolCallBaseIndex + introduced state) .toolUse) := by
  unfold seriesStops seriesState introduced
  by_cases hlast : state.lastMessagesType = .tools
  · rw [if_pos hlast, if_pos hlast, if_pos hlast]
    have hboard : boardOf state = layout state.toolCallBaseIndex
        (state.toolCallBaseIndex + (state.toolCallMaxIndexOffset + 1)) .toolUse := by
      unfold boardOf
      rw [hlast, Int.add_assoc]
    rw [hboard]
    exact .nil _
  · rw [if_neg hlast, if_neg hlast, if_neg hlast]
    simpa using plays_stopOpenBlocks h .toolUse

/-- What a piece of the conversion does while the message is open: its events lead from the board of
the state to that of the state it leaves, and at most `n` calls of the series are introduced then. -/
structure Follows (state : ClaudeConvertInfo Usage)
    (out : List (ClaudeResponse ClaudeUsage) × ClaudeConvertInfo Usage) (n : ℤ) : Prop where
  plays : Plays (boardOf state) out.1 (boardOf out.2)
  bounds : Bounds out.2
  done : out.2.done = state.done
  introduced : introduced out.2 ≤ n

theorem Follows.mono {out : List (ClaudeResponse ClaudeUsage) × ClaudeConvertInfo Usage} {m : ℤ}
    (h : Follows state out m) (hle : m ≤ n) : Follows state out n :=
  ⟨h.plays, h.bounds, h.done, h.introduced.trans hle⟩

theorem zipIdx_fst : toolCalls.zipIdx.map Prod.fst = toolCalls :=
  zipIdx_map_fst 0 toolCalls

/-- **Tool calls**: a chunk that continues the series leads to the board of the state it leaves. -/
theorem follows_laterToolCalls {toolCalls : List ToolCallResponse} (h : Bounds state) (hne : toolCalls ≠ [])
    (hc : Continues (introduced state) toolCalls.zipIdx) :
    Follows state (laterToolCalls toolCalls state : Said ClaudeUsage _)
      (introduced state + introductions toolCalls) := by
  obtain ⟨hbounds, hlast, hdone, hn, hmax⟩ := seriesState_facts h
  obtain ⟨hplays, hstate⟩ := @plays_fragments Usage ClaudeUsage _ _ _ hbounds.base hn hmax hc
  rw [zipIdx_fst] at hplays hstate
  -- the first fragment introduces a call or continues one, so the series is not empty
  have hpos : 0 < introduced state + (introductions toolCalls : ℤ) := by
    obtain ⟨toolCall, rest, rfl⟩ := exists_cons_of_ne_nil hne
    rw [zipIdx_cons] at hc
    have hhead := (continues_cons.mp hc).1
    rw [introductions_cons]
    split_ifs at hhead ⊢ <;> push_cast <;> omega
  have hoffset : maxOffset (introduced state + introductions toolCalls) =
      introduced state + introductions toolCalls - 1 := if_pos hpos
  rw [laterToolCalls_apply, hstate, hoffset]
  refine ⟨(plays_seriesStops h).append ?_, ⟨?_, hbounds.base, ?_⟩, hdone, ?_⟩
  · have hboard : boardOf (leaveTools (withMaxOffset
        (introduced state + introductions toolCalls - 1) (seriesState state))) =
        layout (seriesState state).toolCallBaseIndex ((seriesState state).toolCallBaseIndex +
            (introduced state + introductions toolCalls)) .toolUse := by
      simp only [boardOf, leaveTools, withMaxOffset, hlast]
      congr 1
      omega
    rw [hboard]
    exact hplays
  · have hbase := hbounds.base
    show 0 ≤ (seriesState state).toolCallBaseIndex + (introduced state + introductions toolCalls - 1)
    omega
  · show 0 ≤ introduced state + (introductions toolCalls : ℤ) - 1
    omega
  · simp only [Relay.introduced, leaveTools, withMaxOffset, hlast, if_pos]
    omega

theorem introduced_nonneg (h : Bounds state) : 0 ≤ introduced state := (seriesState_facts h).2.2.2.1

theorem introduced_single (hk : SingleKind last kind) (h : state.lastMessagesType = last) : introduced state = 0 := by
  unfold introduced
  rw [h]
  rcases hk with ⟨rfl, -⟩ | ⟨rfl, -⟩ <;> rfl

theorem follows_switch (hk : SingleKind last kind) (hblock : block.kind = kind) (hdelta : delta.kind = kind)
    (h : Bounds state) :
    Follows state ((switchEvents block delta state : List (ClaudeResponse ClaudeUsage)), switchedTo last state) 0 := by
  have hadvance := bounds_advance h
  exact ⟨plays_switch hk hblock hdelta h, ⟨hadvance.index, hadvance.base, hadvance.offset⟩,
    advance_done state, (introduced_single hk rfl).le⟩

abbrev laterBlock (last : LastMessagesType) (block : ContentBlock) (delta : BlockDelta) :
    Program (ClaudeConvertInfo Usage) (ClaudeResponse ClaudeUsage) :=
  andThen (unlessLast last (andThen stopOpenBlocksAndAdvance (startBlock block))) (deltaBlock last delta)

theorem laterBlock_same (hlast : state.lastMessagesType = last) (block : ContentBlock) (delta : BlockDelta) :
    (laterBlock last block delta state : Said ClaudeUsage _) = ([.contentBlockDelta state.index delta], state) := by
  subst hlast
  simp [laterBlock, unlessLast, deltaBlock]

theorem laterBlock_switch (hlast : state.lastMessagesType ≠ last) (block : ContentBlock) (delta : BlockDelta) :
    (laterBlock last block delta state : Said ClaudeUsage _) =
      (switchEvents block delta state, switchedTo last state) := by
  simp [laterBlock, unlessLast, hlast, deltaBlock, switchEvents, switchedTo, stopOpenBlocksAndAdvance, startBlock]

/-- **Text and thinking**: the block is opened unless it is open. -/
theorem follows_laterBlock (hk : SingleKind last kind) (hblock : block.kind = kind)
    (hdelta : delta.kind = kind) (h : Bounds state) : Follows state
      (laterBlock last block delta state : Said ClaudeUsage _) 0 := by
  by_cases hlast : state.lastMessagesType = last
  · rw [laterBlock_same hlast]
    exact ⟨plays_delta hk hdelta hlast, h, rfl, (introduced_single hk hlast).le⟩
  · rw [laterBlock_switch hlast]
    exact follows_switch hk hblock hdelta h

/-- **A later chunk**: its content keeps the board, if its tool calls continue the series. -/
theorem follows_laterContent {delta : ChoiceDelta} (h : Bounds state)
    (hc : Continues (introduced state) delta.toolCalls.zipIdx) :
    Follows state (laterContent delta state : Said ClaudeUsage _)
      (introduced state + introductions delta.toolCalls) := by
  have hn := introduced_nonneg h
  have hle : (0 : ℤ) ≤ introduced state + introductions delta.toolCalls := by omega
  unfold laterContent
  by_cases htools : delta.toolCalls ≠ []
  · rw [if_pos htools]
    exact follows_laterToolCalls h htools hc
  rw [if_neg htools]
  by_cases hreasoning : delta.getReasoningContent ≠ ""
  · rw [if_pos hreasoning]
    exact (follows_laterBlock (.inr ⟨rfl, rfl⟩) rfl rfl h).mono hle
  rw [if_neg hreasoning]
  split_ifs with htext
  · exact (follows_laterBlock (.inl ⟨rfl, rfl⟩) rfl rfl h).mono hle
  · refine ⟨.nil _, h, rfl, ?_⟩
    show introduced state ≤ introduced state + introductions delta.toolCalls
    omega

end blocks

end WynthApi.Relay
