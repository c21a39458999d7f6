import WynthApi.Relay.ResponsesCalls

/-!
# The output items of a converted chat stream

`itemEvents i` is what a Responses stream says of output index `i`.  A stream is `Consistent` if it begins with
its only `created` event, ends with a response, and says of each item of the response's output that it was
added, the deltas that make up its value, and that it is done; of other indices it says nothing.

Text, reasoning and each call have a `Slot`: the index they took and how far they are.  `Tells` is the invariant
between the slots and the events, `Tells.touch` its one rule: an operation changes one slot and writes events of that
slot only.
-/

namespace WynthApi.Relay

open List AList

/-! ### What a stream says of an item -/

inductive ItemEvent
  | added
  | delta (type : ResponsesEventType) (text : String)
  | done (item : ResponsesOutput)
  deriving DecidableEq, Repr

section events

variable {Usage : Type}

variable (i : ℤ)

def itemEventAt (event : ChatToResponsesStreamEvent Usage) : Option ItemEvent :=
  if event.outputIndex = some i then
    match event.type with
    | .outputItemAdded => some .added
    | .outputTextDelta | .reasoningSummaryDelta | .functionArgsDelta => some (.delta event.type event.delta)
    | .outputItemDone => event.item.map .done
    | _ => none
  else none

def itemEvents (events : List (ChatToResponsesStreamEvent Usage)) : List ItemEvent :=
  events.filterMap (itemEventAt i)

theorem itemEvents_append (events events' : List (ChatToResponsesStreamEvent Usage)) :
    itemEvents i (events ++ events') = itemEvents i events ++ itemEvents i events' :=
  filterMap_append

def deltaType : ResponsesOutputType → ResponsesEventType
  | .message => .outputTextDelta
  | .reasoning => .reasoningSummaryDelta
  | _ => .functionArgsDelta

/-- The deltas of an item of this type make up its value. -/
def ResponsesOutputType.streams : ResponsesOutputType → Bool
  | .message => true
  | .reasoning => true
  | .functionCall => true
  | _ => false

def ResponsesOutput.body (item : ResponsesOutput) : ResponsesOutput :=
  { item with id := "", callId := "", status := "", role := "" }

def ResponsesOutput.value (item : ResponsesOutput) : String :=
  match item.type with
  | .message | .reasoning => String.join (item.content.map fun part => part.text)
  | _ => item.argumentsString

structure Consistent (events : List (ChatToResponsesStreamEvent Usage)) : Prop where
  created : ∃ first rest, events = first :: rest ∧ first.type = .created ∧ ∀ e ∈ rest, e.type ≠ .created
  items : ∃ init last response, events = init ++ [last] ∧
    (last.type = .completed ∨ last.type = .incomplete) ∧ last.response = some response ∧
    (∀ (j : ℕ) item, response.output[j]? = some item → ∃ texts done,
      itemEvents j events = .added :: texts.map (.delta (deltaType item.type)) ++ [.done done] ∧
        done.body = item.body ∧ (item.type.streams = true → String.join texts = item.value)) ∧
    ∀ i : ℤ, (i < 0 ∨ (response.output.length : ℤ) ≤ i) → itemEvents i events = []

end events

/-! ### Slots -/

structure Slot where
  index : ℤ
  (added done : Bool)
  body : ResponsesOutput
  deriving DecidableEq, Repr

/-- What was said of the item in a slot, if its deltas hold `told`. -/
def Story (slot : Slot) (told : String) (events : List ItemEvent) : Prop :=
  ∃ texts finished,
    events = (if slot.added then [.added] else []) ++ texts.map (.delta (deltaType slot.body.type)) ++
      finished.map .done ∧
    String.join texts = told ∧ (slot.added = false → texts = [] ∧ finished = []) ∧
    (if slot.done then ∃ item : ResponsesOutput, finished = [item] ∧ item.body = slot.body else finished = [])

variable {before : List ItemEvent}

section slots

variable {Usage : Type} (unmarshal : String → Option RawMessage)

def toolSlot (restore : Option ResponsesToolRestoreMetadata) (tool : ChatToResponsesStreamTool) : Slot where
  index := tool.outputIndex
  added := tool.announced
  done := tool.done
  body := (toolOutput unmarshal restore tool "").body

def Voice.body (text : String) : Voice → ResponsesOutput
  | .text => { type := .message, content := [⟨.outputText, text⟩] }
  | .reasoning => { type := .reasoning, content := [⟨.summaryText, text⟩] }

def Voice.slot (v : Voice) (w : Writing) : Option Slot :=
  if w.started then some ⟨w.index, true, w.done, v.body w.text⟩ else none

def slotOf (s : ChatToResponsesStreamState Usage) : ChatToResponsesOutputRef → Option Slot
  | .message => Voice.text.slot (Voice.text.get s)
  | .reasoning => Voice.reasoning.slot (Voice.reasoning.get s)
  | .tool c => (s.toolsByIndex.lookup c).map (toolSlot unmarshal s.toolRestore)

/-- **Invariant**: the slots are numbered in their order without a gap, and the events tell their stories. -/
structure Tells (told : ChatToResponsesOutputRef → String)
    (events : List (ChatToResponsesStreamEvent Usage)) (s : ChatToResponsesStreamState Usage) : Prop where
  next : s.nextOutputIndex = s.outputOrder.length
  nodup : s.outputOrder.Nodup
  listed : ∀ r, r ∈ s.outputOrder ↔ slotOf unmarshal s r ≠ none
  placed : ∀ (j : ℕ) r slot, s.outputOrder[j]? = some r → slotOf unmarshal s r = some slot → slot.index = j
  story : ∀ r slot, slotOf unmarshal s r = some slot → Story slot (told r) (itemEvents slot.index events)
  silent : ∀ i, (∀ r slot, slotOf unmarshal s r = some slot → slot.index ≠ i) → itemEvents i events = []

structure Sets (s s' : ChatToResponsesStreamState Usage) (r : ChatToResponsesOutputRef) (slot' : Slot) : Prop where
  slot : slotOf unmarshal s' r = some slot'
  other : ∀ r', r' ≠ r → slotOf unmarshal s' r' = slotOf unmarshal s r'

variable {unmarshal} {told told' : ChatToResponsesOutputRef → String}
  {events new : List (ChatToResponsesStreamEvent Usage)} {s s' : ChatToResponsesStreamState Usage}

variable {slot slot' : Slot} {r : ChatToResponsesOutputRef}

variable (h : Tells unmarshal told events s)

include h in
theorem Tells.place (hslot : slotOf unmarshal s r = some slot) :
    ∃ j : ℕ, s.outputOrder[j]? = some r ∧ slot.index = j := by
  obtain ⟨j, hj⟩ := mem_iff_getElem?.mp ((h.listed r).mpr (by simp [hslot]))
  exact ⟨j, hj, h.placed j r slot hj hslot⟩

include h in
theorem Tells.index_lt (hslot : slotOf unmarshal s r = some slot) : slot.index < s.nextOutputIndex := by
  obtain ⟨j, hj, hindex⟩ := h.place hslot
  obtain ⟨hlt, -⟩ := List.getElem?_eq_some_iff.mp hj
  rw [hindex, h.next]
  exact_mod_cast hlt

variable {r' : ChatToResponsesOutputRef}

include h in
theorem Tells.index_inj (hslot : slotOf unmarshal s r = some slot) (hslot' : slotOf unmarshal s r' = some slot')
    (hindex : slot.index = slot'.index) : r = r' := by
  obtain ⟨j, hj, hji⟩ := h.place hslot
  obtain ⟨j', hj', hji'⟩ := h.place hslot'
  have hsame : j = j' := by
    have hcast : (j : ℤ) = j' := by rw [← hji, ← hji', hindex]
    exact_mod_cast hcast
  rw [hsame, hj'] at hj
  exact (Option.some.inj hj).symm

/-- How the slot of an operation comes about: it was there, or it takes the next index. -/
inductive Taken (s s' : ChatToResponsesStreamState Usage) (r : ChatToResponsesOutputRef) (slot' : Slot) : Prop
  | old (slot : Slot) (hslot : slotOf unmarshal s r = some slot) (hindex : slot'.index = slot.index)
      (horder : s'.outputOrder = s.outputOrder) (hnext : s'.nextOutputIndex = s.nextOutputIndex)
  | new (hslot : slotOf unmarshal s r = none) (hindex : slot'.index = s.nextOutputIndex)
      (horder : s'.outputOrder = s.outputOrder ++ [r]) (hnext : s'.nextOutputIndex = s.nextOutputIndex + 1)

section touch

variable (htaken : @Taken Usage unmarshal s s' r slot')
include htaken

theorem Taken.index_eq (hslot : slotOf unmarshal s r = some slot) : slot'.index = slot.index := by
  cases htaken with
  | old slot₀ hslot₀ hindex _ _ =>
    rw [hslot] at hslot₀
    cases hslot₀
    exact hindex
  | new hnone _ _ _ =>
    rw [hslot] at hnone
    cases hnone

include h in
theorem Taken.apart (hr : r' ≠ r) (hslot : slotOf unmarshal s r' = some slot) : slot.index ≠ slot'.index := by
  cases htaken with
  | old slot₀ hslot₀ hindex _ _ =>
    rw [hindex]
    exact fun heq => hr (h.index_inj hslot hslot₀ heq)
  | new _ hindex _ _ =>
    rw [hindex]
    exact (h.index_lt hslot).ne

include h in
theorem Taken.nodup : s'.outputOrder.Nodup := by
  cases htaken with
  | old _ _ _ horder _ =>
    rw [horder]
    exact h.nodup
  | new hnone _ horder _ =>
    rw [horder]
    refine nodup_append.mpr ⟨h.nodup, nodup_singleton r, ?_⟩
    intro x hx y hy hxy
    rw [mem_singleton.mp hy] at hxy
    rw [hxy, h.listed, hnone] at hx
    exact hx rfl

include h in
theorem Taken.placed (hsets : Sets unmarshal s s' r slot') {j : ℕ}
    (hj : s'.outputOrder[j]? = some r') (hr' : slotOf unmarshal s' r' = some slot) : slot.index = j := by
  cases htaken with
  | old slot₀ hslot₀ hindex horder _ =>
    rw [horder] at hj
    by_cases hr : r' = r
    · subst hr
      rw [hsets.slot] at hr'
      cases hr'
      rw [hindex]
      exact h.placed j r' slot₀ hj hslot₀
    · rw [hsets.other r' hr] at hr'
      exact h.placed j r' slot hj hr'
  | new hnone hindex horder _ =>
    rw [horder] at hj
    by_cases hlt : j < s.outputOrder.length
    · rw [getElem?_append_left hlt] at hj
      have hr : r' ≠ r := by
        rintro rfl
        exact (h.listed r').mp (mem_of_getElem? hj) hnone
      rw [hsets.other r' hr] at hr'
      exact h.placed j r' slot hj hr'
    · rw [List.getElem?_append_right (by omega)] at hj
      obtain ⟨hj0, hjr⟩ := List.getElem?_eq_some_iff.mp hj
      have hj' : j = s.outputOrder.length := by
        simp at hj0
        omega
      subst hj'
      simp at hjr
      subst hjr
      rw [hsets.slot] at hr'
      cases hr'
      rw [hindex, h.next]

end touch

include h in
/-- **Touch rule**: an operation on one slot. -/
theorem Tells.touch (htaken : @Taken Usage unmarshal s s' r slot') (hsets : Sets unmarshal s s' r slot')
    (htold : ∀ r', r' ≠ r → told' r' = told r') (hnew : ∀ e ∈ new, e.outputIndex = some slot'.index)
    (hstory : ∀ before, (slotOf unmarshal s r = none → before = []) →
      (∀ slot, slotOf unmarshal s r = some slot → Story slot (told r) before) →
      Story slot' (told' r) (before ++ itemEvents slot'.index new)) :
    Tells unmarshal told' (events ++ new) s' := by
  have hsilent : ∀ i, i ≠ slot'.index → itemEvents i new = [] := by
    intro i hi
    refine filterMap_eq_nil_iff.mpr fun e he => if_neg ?_
    rw [hnew e he]
    exact fun heq => hi (Option.some.inj heq).symm
  have hbefore : slotOf unmarshal s r = none → itemEvents slot'.index events = [] := by
    intro hnone
    refine h.silent _ fun r' slot hr' => htaken.apart h ?_ hr'
    rintro rfl
    rw [hnone] at hr'
    cases hr'
  have hlisted : ∀ r', r' ∈ s'.outputOrder ↔ slotOf unmarshal s' r' ≠ none := by
    intro r'
    by_cases hr : r' = r
    · subst hr
      rw [hsets.slot]
      refine iff_of_true ?_ (by simp)
      cases htaken with
      | old slot hslot' _ horder _ =>
        rw [horder, h.listed, hslot']
        simp
      | new _ _ horder _ =>
        rw [horder]
        simp
    · rw [hsets.other r' hr, ← h.listed]
      cases htaken with
      | old _ _ _ horder _ => rw [horder]
      | new _ _ horder _ =>
        rw [horder]
        simp [hr]
  refine ⟨?_, htaken.nodup h, hlisted, fun j r' slot => htaken.placed h hsets, ?_, ?_⟩
  · cases htaken with
    | old _ _ _ horder hnext => rw [hnext, horder, h.next]
    | new _ _ horder hnext =>
      rw [hnext, horder, h.next, length_append]
      simp
  · intro r' slot hr'
    by_cases hr : r' = r
    · subst hr
      rw [hsets.slot] at hr'
      cases hr'
      rw [itemEvents_append]
      refine hstory _ hbefore fun slot₀ hslot₀ => ?_
      rw [htaken.index_eq hslot₀]
      exact h.story r' slot₀ hslot₀
    · rw [hsets.other r' hr] at hr'
      rw [htold r' hr, itemEvents_append, hsilent _ (htaken.apart h hr hr'), append_nil]
      exact h.story r' slot hr'
  · intro i hi
    have hne : i ≠ slot'.index := fun heq => hi r slot' hsets.slot heq.symm
    rw [itemEvents_append, hsilent i hne, append_nil]
    refine h.silent i fun r' slot hr' hindex => ?_
    by_cases hr : r' = r
    · subst hr
      exact hne (hindex.symm.trans (htaken.index_eq hr').symm)
    · exact hi r' slot (by rw [hsets.other r' hr]; exact hr') hindex

include h in
theorem Tells.quiet (hnew : ∀ i, itemEvents i new = []) : Tells unmarshal told (events ++ new) s := by
  have hsame : ∀ i, itemEvents i (events ++ new) = itemEvents i events := by
    intro i
    rw [itemEvents_append, hnew, append_nil]
  refine ⟨h.next, h.nodup, h.listed, h.placed, fun r slot hslot => ?_, fun i hi => ?_⟩
  · rw [hsame]
    exact h.story r slot hslot
  · rw [hsame]
    exact h.silent i hi

/-! ### Stories -/

theorem Story.fresh (hadded : slot.added = false) (hdone : slot.done = false) : Story slot "" [] := by
  refine ⟨[], [], ?_, rfl, fun _ => ⟨rfl, rfl⟩, ?_⟩
  · rw [hadded]
    rfl
  · rw [hdone]
    rfl

theorem Story.fill {told : String} (h : Story slot told before)
    (hdone : slot.done = false) (hadded' : slot'.added = true) (hdone' : slot'.done = false)
    (htype : deltaType slot'.body.type = deltaType slot.body.type) (texts : List String) :
    Story slot' (told ++ String.join texts) (before ++ ((if slot.added then [] else [.added]) ++
      texts.map (.delta (deltaType slot'.body.type)))) := by
  obtain ⟨before', finished, rfl, htold, hnot, hfinished⟩ := h
  rw [hdone] at hfinished
  have hnil : finished = [] := hfinished
  subst hnil
  refine ⟨before' ++ texts, [], ?_, ?_, ?_, ?_⟩
  · rw [hadded', htype]
    cases hadded : slot.added with
    | true => simp
    | false =>
      rw [(hnot hadded).1]
      simp
  · rw [String.join_append, htold]
  · rw [hadded']
    exact fun h => by cases h
  · rw [hdone']
    rfl

variable {item : ResponsesOutput}

theorem Story.finish {told : String}
    (h : Story slot told before) (hadded : slot.added = true) (hdone : slot.done = false)
    (hadded' : slot'.added = true) (hdone' : slot'.done = true) (hbody : slot'.body = slot.body)
    (hitem : item.body = slot'.body) : Story slot' told (before ++ [.done item]) := by
  obtain ⟨texts, finished, rfl, htold, -, hfinished⟩ := h
  rw [hdone] at hfinished
  have hnil : finished = [] := hfinished
  subst hnil
  refine ⟨texts, [item], ?_, htold, ?_, ?_⟩
  · rw [hadded', hadded, hbody]
    simp
  · rw [hadded']
    exact fun h => by cases h
  · rw [hdone']
    exact ⟨item, rfl, hitem⟩

/-! ### Rules for one item -/

section rules

variable {r : ChatToResponsesOutputRef} {slot slot' : Slot} {e : ChatToResponsesStreamEvent Usage}

include h in
theorem Tells.add (hnone : slotOf unmarshal s r = none) (hsets : Sets unmarshal s s' r slot')
    (horder : s'.outputOrder = s.outputOrder ++ [r]) (hnext : s'.nextOutputIndex = s.nextOutputIndex + 1)
    (hindex : slot'.index = s.nextOutputIndex) (hadded : slot'.added = true) (hdone : slot'.done = false)
    (htold : ∀ r', r' ≠ r → told' r' = told r') (hempty : told' r = "")
    (he : e.outputIndex = some slot'.index) (hevent : itemEventAt slot'.index e = some .added) :
    Tells unmarshal told' (events ++ [e]) s' := by
  refine h.touch (.new hnone hindex horder hnext) hsets htold ?_ ?_
  · intro e' he'
    rw [mem_singleton.mp he']
    exact he
  · intro before hbefore _
    have hfresh : Story { slot' with added := false } "" [] := Story.fresh rfl hdone
    have hfill : Story slot' _ _ := hfresh.fill hdone hadded hdone rfl []
    rw [hbefore hnone, hempty]
    simpa [itemEvents, hevent] using hfill

include h in
theorem Tells.fill (hslot : slotOf unmarshal s r = some slot) (hsets : Sets unmarshal s s' r slot')
    (horder : s'.outputOrder = s.outputOrder) (hnext : s'.nextOutputIndex = s.nextOutputIndex)
    (hindex : slot'.index = slot.index) (hadded : slot.added = true) (hdone : slot.done = false)
    (hadded' : slot'.added = true) (hdone' : slot'.done = false)
    (htype : deltaType slot'.body.type = deltaType slot.body.type) {text : String}
    (htold : ∀ r', r' ≠ r → told' r' = told r') (htext : told' r = told r ++ text)
    (he : e.outputIndex = some slot'.index)
    (hevent : itemEventAt slot'.index e = some (.delta (deltaType slot'.body.type) text)) :
    Tells unmarshal told' (events ++ [e]) s' := by
  refine h.touch (.old slot hslot hindex horder hnext) hsets htold ?_ ?_
  · intro e' he'
    rw [mem_singleton.mp he']
    exact he
  · intro before _ hstory
    have hfill := (hstory slot hslot).fill hdone hadded' hdone' htype [text]
    rw [htext]
    simpa [itemEvents, hevent, hadded] using hfill

include h in
theorem Tells.finish (hslot : slotOf unmarshal s r = some slot)
    (hsets : Sets unmarshal s s' r { slot with done := true })
    (horder : s'.outputOrder = s.outputOrder) (hnext : s'.nextOutputIndex = s.nextOutputIndex)
    (hadded : slot.added = true) (hdone : slot.done = false)
    (hitem : item.body = slot.body) (hnew : ∀ e ∈ new, e.outputIndex = some slot.index)
    (hevents : itemEvents slot.index new = [.done item]) : Tells unmarshal told (events ++ new) s' := by
  have htaken : @Taken Usage unmarshal s s' r { slot with done := true } := .old slot hslot rfl horder hnext
  refine h.touch htaken hsets (fun _ _ => rfl) hnew ?_
  intro before _ hstory
  rw [hevents]
  exact (hstory slot hslot).finish hadded hdone hadded rfl rfl hitem

end rules

end slots

/-! ### Following a stream -/

section following

variable {Usage : Type} (unmarshal : String → Option RawMessage)
  (restore : Option ResponsesToolRestoreMetadata)

def callFragments (c : ℤ) (fragments : List ToolCallResponse) : List ToolCallResponse :=
  fragments.filter fun toolCall => toolCall.index.getD 0 = c

variable (fragments : List ToolCallResponse)

variable (s : ChatToResponsesStreamState Usage)

def toldOf :
    ChatToResponsesOutputRef → String
  | .message => s.text
  | .reasoning => s.reasoning
  | .tool c => (heard restore (callFragments c fragments)).told

structure MadeBy (tool : ChatToResponsesStreamTool) : Prop where
  name : tool.name = nameOf fragments
  arguments : tool.arguments = argumentsOfCall fragments
  announced : tool.done = false → tool.announced = (heard restore fragments).announced

structure Following (events : List (ChatToResponsesStreamEvent Usage))
    (s : ChatToResponsesStreamState Usage) : Prop where
  tells : Tells unmarshal (toldOf restore fragments s) events s
  restored : s.toolRestore = restore
  voices : ∀ v : Voice, (v.get s).started = false → (v.get s).text = "" ∧ (v.get s).done = false
  tools : ∀ c tool, s.toolsByIndex.lookup c = some tool → MadeBy restore (callFragments c fragments) tool
  unknown : ∀ c, s.toolsByIndex.lookup c = none → callFragments c fragments = []

def Pending : Prop :=
  ∀ r slot, slotOf unmarshal s r = some slot → slot.done = false

def Closed : Prop :=
  ∀ r slot, slotOf unmarshal s r = some slot → slot.done = true

variable {unmarshal restore} {fragments : List ToolCallResponse}
  {events new : List (ChatToResponsesStreamEvent Usage)} {s s' : ChatToResponsesStreamState Usage}

theorem callFragments_concat (c : ℤ) (fragments : List ToolCallResponse) (toolCall : ToolCallResponse) :
    callFragments c (fragments ++ [toolCall]) =
      callFragments c fragments ++ if toolCall.index.getD 0 = c then [toolCall] else [] := by
  unfold callFragments
  rw [filter_append]
  by_cases h : toolCall.index.getD 0 = c <;> simp [h]

/-- The parts of the state that the items do not depend on. -/
structure SameItems (s s' : ChatToResponsesStreamState Usage) : Prop where
  slots : ∀ unmarshal, slotOf unmarshal s' = slotOf unmarshal s
  order : s'.outputOrder = s.outputOrder
  next : s'.nextOutputIndex = s.nextOutputIndex
  voices : ∀ v : Voice, v.get s' = v.get s
  tools : s'.toolsByIndex = s.toolsByIndex
  restore : s'.toolRestore = s.toolRestore

theorem sameItems_fields (s : ChatToResponsesStreamState Usage) (id model status : String) (created : ℤ)
    (usage : Usage) (incompleteReason : Option String) (sentCreated finalized : Bool) :
    SameItems s { s with id, model, created, usage, status, incompleteReason, sentCreated, finalized } :=
  ⟨fun _ => by funext r; cases r <;> rfl, rfl, rfl, fun v => by cases v <;> rfl, rfl, rfl⟩

theorem sameItems_metadata (usageFrom : Usage → Usage) (chunk : ChatCompletionsStreamResponse Usage)
    (s : ChatToResponsesStreamState Usage) : SameItems s (applyChunkMetadata usageFrom chunk s) :=
  sameItems_fields s _ _ s.status _ _ s.incompleteReason s.sentCreated s.finalized

theorem sameItems_created (s : ChatToResponsesStreamState Usage) : SameItems s { s with sentCreated := true } :=
  sameItems_fields s s.id s.model s.status s.created s.usage s.incompleteReason true s.finalized

theorem sameItems_finishReason (reason : String) (s : ChatToResponsesStreamState Usage) :
    SameItems s (applyFinishReason reason s) :=
  sameItems_fields s s.id s.model _ s.created s.usage _ s.sentCreated s.finalized

theorem sameItems_finalized (s : ChatToResponsesStreamState Usage) : SameItems s { s with finalized := true } :=
  sameItems_fields s s.id s.model s.status s.created s.usage s.incompleteReason s.sentCreated true

variable (h : Following unmarshal restore fragments events s)

include h in
theorem Following.congr (hsame : SameItems s s') : Following unmarshal restore fragments events s' := by
  have htold : toldOf restore fragments s' = toldOf restore fragments s := by
    funext r
    cases r with
    | message => exact congrArg Writing.text (hsame.voices .text)
    | reasoning => exact congrArg Writing.text (hsame.voices .reasoning)
    | tool c => rfl
  refine ⟨⟨?_, ?_, ?_, ?_, ?_, ?_⟩, hsame.restore.trans h.restored, fun v => ?_, ?_, ?_⟩
  · rw [hsame.next, hsame.order]
    exact h.tells.next
  · rw [hsame.order]
    exact h.tells.nodup
  · rw [hsame.order, hsame.slots]
    exact h.tells.listed
  · rw [hsame.order, hsame.slots]
    exact h.tells.placed
  · rw [hsame.slots, htold]
    exact h.tells.story
  · rw [hsame.slots]
    exact h.tells.silent
  · rw [hsame.voices]
    exact h.voices v
  · rw [hsame.tools]
    exact h.tools
  · rw [hsame.tools]
    exact h.unknown

theorem Pending.congr (h : Pending unmarshal s) (hsame : SameItems s s') : Pending unmarshal s' := by
  unfold Pending
  rw [hsame.slots]
  exact h

theorem Closed.congr (h : Closed unmarshal s) (hsame : SameItems s s') : Closed unmarshal s' := by
  unfold Closed
  rw [hsame.slots]
  exact h

include h in
theorem Following.quiet (hnew : ∀ i, itemEvents i new = []) : Following unmarshal restore fragments (events ++ new) s :=
  ⟨h.tells.quiet hnew, h.restored, h.voices, h.tools, h.unknown⟩

theorem Pending.touch (h : Pending unmarshal s) {r : ChatToResponsesOutputRef} {slot' : Slot}
    (hsets : Sets unmarshal s s' r slot') (hdone : slot'.done = false) : Pending unmarshal s' := by
  intro r' slot hr'
  by_cases hr : r' = r
  · subst hr
    rw [hsets.slot] at hr'
    cases hr'
    exact hdone
  · rw [hsets.other r' hr] at hr'
    exact h r' slot hr'

/-! ### Text and reasoning -/

theorem slotOf_ref (v : Voice) : slotOf unmarshal s v.ref = v.slot (v.get s) := by
  cases v <;> rfl

section voices

variable (v : Voice) (hp : Pending unmarshal s)

include h

/-- An operation on the text or the reasoning keeps to its slot. -/
theorem Following.set {w : Writing} (hw : w.started = true) (hs' : s' = v.set s w ∨ s' = v.set (s.nextIndex v.ref) w) :
    Sets unmarshal s s' v.ref ⟨w.index, true, w.done, v.body w.text⟩ ∧
      (∀ r, r ≠ v.ref → toldOf restore fragments s' r = toldOf restore fragments s r) ∧
      toldOf restore fragments s' v.ref = w.text ∧
      ∀ events', Tells unmarshal (toldOf restore fragments s') events' s' →
        Following unmarshal restore fragments events' s' := by
  have hother : ∀ r, r ≠ v.ref → slotOf unmarshal s' r = slotOf unmarshal s r ∧
      toldOf restore fragments s' r = toldOf restore fragments s r := by
    rcases hs' with rfl | rfl <;> cases v <;> rintro (_ | _ | _) hr <;> first | exact ⟨rfl, rfl⟩ | exact absurd rfl hr
  refine ⟨⟨?_, fun r hr => (hother r hr).1⟩, fun r hr => (hother r hr).2, ?_, fun _ htells => ⟨htells, ?_, ?_, ?_, ?_⟩⟩
  · rcases hs' with rfl | rfl <;> cases v <;> exact if_pos hw
  · rcases hs' with rfl | rfl <;> cases v <;> rfl
  · rcases hs' with rfl | rfl <;> cases v <;> exact h.restored
  · have hself : ∀ P : Prop, w.started = false → P := fun _ hnot => by simp [hw] at hnot
    rcases hs' with rfl | rfl <;> cases v <;>
      rintro (_ | _) <;> first | exact hself _ | exact h.voices .text | exact h.voices .reasoning
  · rcases hs' with rfl | rfl <;> cases v <;> exact h.tools
  · rcases hs' with rfl | rfl <;> cases v <;> exact h.unknown

include hp

theorem following_start :
    Following unmarshal restore fragments (events ++ (v.start s).1) (v.start s).2 ∧
      Pending unmarshal (v.start s).2 ∧ (v.get (v.start s).2).started = true := by
  unfold Voice.start
  by_cases hstarted : (v.get s).started = true
  · rw [if_pos hstarted, append_nil]
    exact ⟨h, hp, hstarted⟩
  · rw [if_neg hstarted]
    obtain ⟨hempty, hdone⟩ := h.voices v (by simpa using hstarted)
    obtain ⟨hsets, htold, hsaid, hfollow⟩ := h.set (w := { v.get s with started := true, index := s.nextOutputIndex }) v rfl (.inr rfl)
    have hnone : slotOf unmarshal s v.ref = none := (slotOf_ref v).trans (if_neg hstarted)
    refine ⟨hfollow _ (h.tells.add hnone hsets ?_ ?_ rfl rfl hdone htold (hsaid.trans hempty) rfl ?_),
      hp.touch hsets hdone, ?_⟩
    · cases v <;> rfl
    · cases v <;> rfl
    · simp [itemEventAt, Voice.added]
    · cases v <;> rfl

theorem following_append (text : String) :
    Following unmarshal restore fragments (events ++ (v.append text s).1) (v.append text s).2 ∧
      Pending unmarshal (v.append text s).2 := by
  obtain ⟨h₁, hp₁, hstarted⟩ := following_start h v hp
  unfold Voice.append
  rw [Emit.andThen_apply, ← append_assoc]
  generalize events ++ (v.start s).1 = events₁ at h₁ ⊢
  generalize (v.start s).2 = s₁ at h₁ hp₁ hstarted ⊢
  have hslot : slotOf unmarshal s₁ v.ref = some _ := (slotOf_ref v).trans (if_pos hstarted)
  have hdone : (v.get s₁).done = false := hp₁ _ _ hslot
  obtain ⟨hsets, htold, hsaid, hfollow⟩ := h₁.set (w := { v.get s₁ with text := (v.get s₁).text ++ text }) v hstarted
    (.inl rfl)
  have htext : _ = toldOf restore fragments s₁ v.ref ++ text := hsaid.trans (by cases v <;> rfl)
  refine ⟨hfollow _ (h₁.tells.fill hslot hsets ?_ ?_ rfl rfl hdone rfl hdone ?_ htold htext ?_ ?_),
    hp₁.touch hsets hdone⟩
  all_goals cases v
  all_goals first | rfl | simp [itemEventAt, Voice.delta, Voice.body, Voice.get, deltaType]

end voices

/-! ### One fragment of a call -/

theorem deltaType_toolType (name : String) : deltaType (toolType restore name) = .functionArgsDelta := by
  unfold toolType
  cases restore with
  | none => rfl
  | some restore =>
    simp only
    split_ifs <;> rfl

section

variable (tool : ChatToResponsesStreamTool)

include tool

theorem toolSlot_deltaType : deltaType (toolSlot unmarshal restore tool).body.type = .functionArgsDelta := by
  show deltaType (toolOutput unmarshal restore tool "").type = _
  rw [toolOutput_type, deltaType_toolType]

theorem announceTool_spec (told : String) :
    ∃ texts, itemEvents tool.outputIndex (announceTool unmarshal restore tool : List
        (ChatToResponsesStreamEvent Usage) × _).1 =
        (if tool.announced = false ∧ announces restore tool.name = true then [.added] else []) ++
          texts.map (.delta .functionArgsDelta) ∧
      String.join texts = late restore ⟨tool.name, tool.arguments, tool.announced, told⟩ tool.name ∧
      ((tool.announced || announces restore tool.name) = false → texts = []) ∧
      (∀ e ∈ (announceTool unmarshal restore tool : List (ChatToResponsesStreamEvent Usage) × _).1,
        e.outputIndex = some tool.outputIndex) ∧
      (announceTool unmarshal restore tool : List (ChatToResponsesStreamEvent Usage) × _).2 =
        { tool with announced := tool.announced || announces restore tool.name } := by
  unfold announceTool late
  rw [toolOutput_type]
  by_cases hnew : tool.announced = false ∧ announces restore tool.name = true
  · rw [if_pos hnew, if_pos hnew]
    obtain ⟨hannounced, hannounces⟩ := hnew
    by_cases hsend : tool.arguments ≠ "" ∧ toolType restore tool.name = .functionCall
    · refine ⟨[tool.arguments], ?_, ?_, by simp [hannounces], ?_, by simp [hannounces]⟩
      · rw [if_pos hsend]
        simp [itemEvents, itemEventAt, toolAdded, toolArgsDelta]
      · simp [hannounced, hannounces, hsend.2]
      · rw [if_pos hsend]
        simp [toolAdded, toolArgsDelta]
    · refine ⟨[], ?_, ?_, fun _ => rfl, ?_, by simp [hannounces]⟩
      · rw [if_neg hsend]
        simp [itemEvents, itemEventAt, toolAdded]
      · by_cases htype : toolType restore tool.name = .functionCall
        · have hempty : tool.arguments = "" := by
            by_contra hne
            exact hsend ⟨hne, htype⟩
          simp [hempty]
        · simp [htype]
      · rw [if_neg hsend]
        simp [toolAdded]
  · rw [if_neg hnew, if_neg hnew]
    have hsame : (tool.announced || announces restore tool.name) = tool.announced := by
      cases hannounced : tool.announced with
      | true => rfl
      | false => simpa [hannounced] using hnew
    refine ⟨[], rfl, ?_, fun _ => rfl, forall_mem_nil _, by rw [hsame]⟩
    rw [if_neg fun h => hnew ⟨h.1, h.2.1⟩]
    rfl

theorem writeArguments_spec (arguments : String) :
    ∃ texts, itemEvents tool.outputIndex (writeArguments unmarshal restore arguments tool : List
        (ChatToResponsesStreamEvent Usage) × _).1 = texts.map (.delta .functionArgsDelta) ∧
      String.join texts = (if tool.announced = true ∧ toolType restore tool.name = .functionCall then arguments
        else "") ∧
      (tool.announced = false → texts = []) ∧ (∀ e ∈ (writeArguments unmarshal restore arguments tool : List
        (ChatToResponsesStreamEvent Usage) × _).1, e.outputIndex = some tool.outputIndex) ∧
      (writeArguments unmarshal restore arguments tool : List (ChatToResponsesStreamEvent Usage) × _).2 =
        { tool with arguments := tool.arguments ++ arguments } := by
  unfold writeArguments sendArguments
  by_cases hempty : arguments = ""
  · rw [if_pos hempty, hempty]
    refine ⟨[], rfl, ?_, fun _ => rfl, forall_mem_nil _, ?_⟩
    · simp
    · rw [String.append_empty]
  · rw [if_neg hempty]
    simp only [toolOutput_type]
    by_cases hsend : tool.announced = true ∧ toolType restore tool.name = .functionCall
    · rw [if_pos hsend, if_pos hsend]
      refine ⟨[arguments], ?_, by simp, fun hnot => ?_, ?_, trivial⟩
      · simp [itemEvents, itemEventAt, toolArgsDelta]
      · rw [hsend.1] at hnot
        cases hnot
      · simp [toolArgsDelta]
    · rw [if_neg hsend, if_neg hsend]
      exact ⟨[], rfl, rfl, fun _ => rfl, forall_mem_nil _, trivial⟩

/-- **One fragment**: what it makes of the call is what `hear` says. -/
theorem writeFragment_spec (toolCall : ToolCallResponse) {p p' : CallProgress}
    (hname : tool.name = p.name) (harguments : tool.arguments = p.arguments)
    (hannounced : tool.announced = p.announced) (hp' : p' = hear restore p toolCall) :
    let written : List (ChatToResponsesStreamEvent Usage) × _ := writeFragment unmarshal restore toolCall tool
    (∃ texts, itemEvents tool.outputIndex written.1 =
        (if tool.announced = false ∧ p'.announced = true then [.added] else []) ++
          texts.map (.delta .functionArgsDelta) ∧
        p'.told = p.told ++ String.join texts ∧ (p'.announced = false → texts = [])) ∧
      (∀ e ∈ written.1, e.outputIndex = some tool.outputIndex) ∧
      written.2.name = p'.name ∧ written.2.arguments = p'.arguments ∧ written.2.announced = p'.announced ∧
      written.2.done = tool.done ∧ written.2.outputIndex = tool.outputIndex := by
  intro written
  subst hp'
  have hwritten : written = Emit.andThen (announceTool unmarshal restore)
    (writeArguments unmarshal restore toolCall.function.arguments) (nameTool toolCall tool) := rfl
  obtain ⟨texts, hevents, htexts, hquiet, hindex, hnext⟩ :=
    @announceTool_spec Usage unmarshal restore (nameTool toolCall tool) p.told
  simp only [nameTool_name, nameTool_arguments, nameTool_announced, nameTool_outputIndex, nameTool_done, hname,
    harguments, hannounced] at hevents htexts hquiet hindex hnext
  rw [hwritten, Emit.andThen_apply, hannounced]
  generalize announceTool unmarshal restore (nameTool toolCall tool) = announced at hevents hindex hnext ⊢
  obtain ⟨texts', hevents', htexts', hsilent, hindex', hnext'⟩ :=
    @writeArguments_spec Usage unmarshal restore announced.2 toolCall.function.arguments
  have hout : announced.2.outputIndex = tool.outputIndex := by rw [hnext]
  have hann : announced.2.announced = (hear restore p toolCall).announced := by
    rw [hnext]
    rfl
  rw [hout] at hevents' hindex'
  refine ⟨⟨texts ++ texts', ?_, ?_, fun hnot => ?_⟩, fun e he => ?_, ?_, ?_, ?_, ?_, ?_⟩
  · have hadds : (p.announced = false ∧ announces restore (p.name ++ toolCall.function.name) = true) ↔
        (p.announced = false ∧ (hear restore p toolCall).announced = true) := by
      unfold hear
      cases p.announced <;> simp
    rw [itemEvents_append, hevents, hevents', append_assoc, map_append]
    simp only [hadds]
  · have hprompt : String.join texts' =
        prompt restore p (p.name ++ toolCall.function.name) toolCall.function.arguments := by
      rw [htexts', hnext]
      rfl
    rw [String.join_append, htexts, hprompt, ← String.append_assoc]
    rfl
  · rw [hsilent (hann.trans hnot), hquiet hnot, append_nil]
  · rcases mem_append.mp he with he | he
    · exact hindex e he
    · exact hindex' e he
  · rw [hnext', hnext]
    rfl
  · rw [hnext', hnext]
    rfl
  · rw [hnext', ← hann]
  · rw [hnext', hnext]
  · rw [hnext', hout]

end

theorem Story.fragment {slot slot' : Slot} {told told' : String} {new : List ItemEvent}
    {texts : List String} (h : Story slot told before) (hdone : slot.done = false)
    (hdone' : slot'.done = false) (htype : deltaType slot.body.type = .functionArgsDelta)
    (htype' : deltaType slot'.body.type = .functionArgsDelta) (hmono : slot.added = true → slot'.added = true)
    (hnew : new = (if slot.added = false ∧ slot'.added = true then [.added] else []) ++
      texts.map (.delta .functionArgsDelta))
    (htold : told' = told ++ String.join texts) (hnot : slot'.added = false → texts = []) :
    Story slot' told' (before ++ new) := by
  cases hadded' : slot'.added with
  | true =>
    have hfill := h.fill hdone hadded' hdone' (htype'.trans htype.symm) texts
    rw [hnew, htold]
    cases hadded : slot.added <;> simpa [hadded, hadded', htype'] using hfill
  | false =>
    have hadded : slot.added = false := by
      by_contra hne
      rw [hmono (by simpa using hne)] at hadded'
      cases hadded'
    obtain ⟨texts', finished, rfl, rfl, hnil, -⟩ := h
    obtain ⟨rfl, rfl⟩ := hnil hadded
    have hempty := hnot hadded'
    subst hempty
    rw [hnew, htold]
    simpa [hadded, hadded'] using Story.fresh hadded' hdone'

theorem slotOf_setTool (c : ℤ) (tool : ChatToResponsesStreamTool) (s : ChatToResponsesStreamState Usage) :
    slotOf unmarshal (s.setTool c tool) (.tool c) = some (toolSlot unmarshal s.toolRestore tool) := by
  show ((s.toolsByIndex.insert c tool).lookup c).map _ = _
  rw [lookup_insert]
  rfl

variable {c : ℤ} {toolCall : ToolCallResponse}

theorem slotOf_setTool_of_ne {tool : ChatToResponsesStreamTool}
    {r : ChatToResponsesOutputRef} (h : r ≠ .tool c) :
    slotOf unmarshal (s.setTool c tool) r = slotOf unmarshal s r := by
  cases r with
  | message | reasoning => rfl
  | tool c' =>
    have hne : c' ≠ c := fun heq => h (by rw [heq])
    show ((s.toolsByIndex.insert c tool).lookup c').map _ = _
    rw [lookup_insert_ne hne]
    rfl

theorem callFragments_of_ne (hc : toolCall.index.getD 0 ≠ c) :
    callFragments c (fragments ++ [toolCall]) = callFragments c fragments := by
  rw [callFragments_concat, if_neg hc, append_nil]

include h in
theorem Following.made {fragments' : List ToolCallResponse} {tool : ChatToResponsesStreamTool}
    (hown : MadeBy restore (callFragments c fragments') tool)
    (hother : ∀ c', c' ≠ c → callFragments c' fragments' = callFragments c' fragments) :
    let tools := s.toolsByIndex.insert c tool
    (∀ c' tool', tools.lookup c' = some tool' → MadeBy restore (callFragments c' fragments') tool') ∧
      ∀ c', tools.lookup c' = none → callFragments c' fragments' = [] := by
  refine ⟨fun c' tool' hlookup => ?_, fun c' hlookup => ?_⟩
  · by_cases hne : c' = c
    · subst hne
      rw [lookup_insert] at hlookup
      exact Option.some.inj hlookup ▸ hown
    · rw [lookup_insert_ne hne] at hlookup
      rw [hother c' hne]
      exact h.tools c' tool' hlookup
  · by_cases hne : c' = c
    · subst hne
      rw [lookup_insert] at hlookup
      cases hlookup
    · rw [lookup_insert_ne hne] at hlookup
      rw [hother c' hne]
      exact h.unknown c' hlookup

include h in
theorem Following.call (hp : Pending unmarshal s)
    (hc : toolCall.index.getD 0 = c) {tool : ChatToResponsesStreamTool} {n : ℤ}
    {order : List ChatToResponsesOutputRef} (hfollows : MadeBy restore (callFragments c fragments) tool)
    (hdone : tool.done = false) (hcase : slotOf unmarshal s (.tool c) = some (toolSlot unmarshal restore tool) ∧
        order = s.outputOrder ∧ n = s.nextOutputIndex ∨
      slotOf unmarshal s (.tool c) = none ∧ callFragments c fragments = [] ∧
        tool.outputIndex = s.nextOutputIndex ∧ order = s.outputOrder ++ [.tool c] ∧ n = s.nextOutputIndex + 1) :
    let written : List (ChatToResponsesStreamEvent Usage) × _ := writeFragment unmarshal restore toolCall tool
    let s' := { s with nextOutputIndex := n, outputOrder := order }.setTool c written.2
    Following unmarshal restore (fragments ++ [toolCall]) (events ++ written.1) s' ∧ Pending unmarshal s' := by
  intro written s'
  have hp' : heard restore (callFragments c (fragments ++ [toolCall])) =
      hear restore (heard restore (callFragments c fragments)) toolCall := by
    rw [callFragments_concat, if_pos hc, heard_concat]
  obtain ⟨⟨texts, hevents, htold, hquiet⟩, hindex, hname, harguments, hannounced, hdone', hout⟩ :=
    @writeFragment_spec Usage unmarshal restore tool toolCall _ _ (hfollows.name.trans (heard_name _).symm)
      (hfollows.arguments.trans (heard_arguments _).symm) (hfollows.announced hdone) hp'
  have hsets : Sets unmarshal s s' (.tool c) (toolSlot unmarshal restore written.2) := by
    refine ⟨?_, fun r' hr' => ?_⟩
    · rw [slotOf_setTool]
      exact congrArg (fun r => some (toolSlot unmarshal r written.2)) h.restored
    · rw [slotOf_setTool_of_ne hr']
      cases r' <;> rfl
  have htoldOther : ∀ r', r' ≠ .tool c →
      toldOf restore (fragments ++ [toolCall]) s' r' = toldOf restore fragments s r' := by
    intro r' hr'
    cases r' with
    | message | reasoning => rfl
    | tool c' =>
      have hne : toolCall.index.getD 0 ≠ c' := by
        rw [hc]
        exact fun heq => hr' (by rw [heq])
      show (heard restore (callFragments c' _)).told = _
      rw [callFragments_of_ne hne]
      rfl
  have hslotDone : (toolSlot unmarshal restore written.2).done = false := hdone'.trans hdone
  have hmade : MadeBy restore (callFragments c (fragments ++ [toolCall])) written.2 :=
    ⟨hname.trans (heard_name _), harguments.trans (heard_arguments _), fun _ => hannounced⟩
  obtain ⟨htools, hunknown⟩ := h.made hmade fun c' hne => callFragments_of_ne (by rw [hc]; exact Ne.symm hne)
  refine ⟨⟨?_, h.restored, h.voices, htools, hunknown⟩, hp.touch hsets hslotDone⟩
  · have htaken : @Taken Usage unmarshal s s' (.tool c) (toolSlot unmarshal restore written.2) := by
      rcases hcase with ⟨hslot, horder, hn⟩ | ⟨hslot, -, hi, horder, hn⟩
      · exact .old _ hslot hout horder hn
      · exact .new hslot (hout.trans hi) horder hn
    refine h.tells.touch htaken hsets htoldOther (fun e he => ?_) ?_
    · rw [hindex e he]
      exact congrArg some hout.symm
    · intro before hbefore hstory
      have hstory₀ : Story (toolSlot unmarshal restore tool)
          (heard restore (callFragments c fragments)).told before := by
        rcases hcase with ⟨hslot, -, -⟩ | ⟨hslot, hnil, -⟩
        · exact hstory _ hslot
        · have hfresh := hfollows.announced hdone
          rw [hnil] at hfresh ⊢
          rw [hbefore hslot]
          exact Story.fresh hfresh hdone
      have hout' : (toolSlot unmarshal restore written.2).index = tool.outputIndex := hout
      rw [hout', hevents]
      refine hstory₀.fragment hdone hslotDone (toolSlot_deltaType _) (toolSlot_deltaType _) ?_ ?_ htold ?_
      · intro hadded
        have hbefore : (heard restore (callFragments c fragments)).announced = true :=
          (hfollows.announced hdone).symm.trans hadded
        refine hannounced.trans ?_
        rw [hp']
        show (_ || _) = true
        rw [hbefore, Bool.true_or]
      · show _ = (if tool.announced = false ∧ written.2.announced = true then _ else _) ++ _
        rw [hannounced]
      · intro hnot
        exact hquiet (hannounced.symm.trans hnot)

include h in
theorem following_toolCall (hp : Pending unmarshal s) (toolCall : ToolCallResponse) :
    Following unmarshal restore (fragments ++ [toolCall]) (events ++ (appendToolCallDelta unmarshal toolCall s).1)
        (appendToolCallDelta unmarshal toolCall s).2 ∧
      Pending unmarshal (appendToolCallDelta unmarshal toolCall s).2 := by
  cases hlookup : s.toolsByIndex.lookup (toolCall.index.getD 0) with
  | some tool =>
    have hslot : slotOf unmarshal s (.tool (toolCall.index.getD 0)) = some (toolSlot unmarshal restore tool) := by
      rw [← h.restored]
      exact congrArg (Option.map _) hlookup
    have hrun : appendToolCallDelta unmarshal toolCall s =
        ((writeFragment unmarshal restore toolCall tool).1, s.setTool (toolCall.index.getD 0)
            (writeFragment unmarshal restore toolCall tool : List (ChatToResponsesStreamEvent Usage) × _).2) := by
      unfold appendToolCallDelta ChatToResponsesStreamState.findTool
      simp only [hlookup, h.restored]
    rw [hrun]
    exact h.call hp rfl (h.tools _ tool hlookup) (hp _ _ hslot) (.inl ⟨hslot, rfl, rfl⟩)
  | none =>
    have hslot : slotOf unmarshal s (.tool (toolCall.index.getD 0)) = none :=
      congrArg (Option.map _) hlookup
    have hnil := h.unknown _ hlookup
    set tool : ChatToResponsesStreamTool :=
      { chatIndex := toolCall.index.getD 0, outputIndex := s.nextOutputIndex,
        id := (nonBlank toolCall.id).getD (s.id ++ "_call_" ++ GoText.itoa (toolCall.index.getD 0)) }
    have hrun : appendToolCallDelta unmarshal toolCall s =
        ((writeFragment unmarshal restore toolCall tool).1, (s.nextIndex (.tool (toolCall.index.getD 0))).setTool
          (toolCall.index.getD 0)
          (writeFragment unmarshal restore toolCall tool : List (ChatToResponsesStreamEvent Usage) × _).2) := by
      unfold appendToolCallDelta ChatToResponsesStreamState.findTool
      simp only [hlookup, h.restored]
      rfl
    have hfollows : MadeBy restore (callFragments (toolCall.index.getD 0) fragments) tool := by
      rw [hnil]
      exact ⟨rfl, rfl, fun _ => rfl⟩
    rw [hrun]
    exact h.call hp rfl hfollows rfl (.inr ⟨hslot, hnil, rfl, rfl, rfl⟩)

end following

end WynthApi.Relay
