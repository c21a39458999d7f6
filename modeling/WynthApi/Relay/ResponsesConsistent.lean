import WynthApi.Relay.ResponsesItems

/-!
# Converted chat streams are consistent

A finish reason or the end of the stream makes every item done (`closed_doneDeltaEvents`), and then the response
lists the slots in their order.  So a stream is consistent exactly if there was a chunk, which brings the
`created` event, and the deltas of every function call are complete (`responsesStream_consistent_iff`).
-/

namespace WynthApi.Relay

open Emit List ChatCompletionsStreamResponse Simulates Option AList

/-! ### The end of the items -/

variable {told : String} {before : List ItemEvent} {item : ResponsesOutput}

variable {Usage : Type} {unmarshal : String → Option RawMessage}
  {restore : Option ResponsesToolRestoreMetadata} {fragments : List ToolCallResponse}
  {events : List (ChatToResponsesStreamEvent Usage)} {s : ChatToResponsesStreamState Usage}

section closing

theorem Story.close {slot slot' : Slot} (h : Story slot told before) (hdone : slot.done = false)
    (hadded' : slot'.added = true) (hdone' : slot'.done = true) (hbody : slot'.body = slot.body) (hitem : item.body = slot.body) :
    Story slot' told (before ++ ((if slot.added then [] else [.added]) ++ [.done item])) := by
  have hfill := @Story.fill before slot { slot with added := true } told h hdone rfl hdone rfl []
  have hfinish : Story slot' _ (_ ++ [.done item]) := hfill.finish rfl hdone hadded' hdone' hbody
    (hitem.trans hbody.symm)
  simpa [append_assoc] using hfinish

def Ends (unmarshal : String → Option RawMessage) (restore : Option ResponsesToolRestoreMetadata)
    (r : ChatToResponsesOutputRef) (program : ResponsesProgram Usage) : Prop :=
  ∀ fragments events s, Following unmarshal restore fragments events s →
    Following unmarshal restore fragments (events ++ (program s).1) (program s).2 ∧
      (∀ r', r' ≠ r → slotOf unmarshal (program s).2 r' = slotOf unmarshal s r') ∧
      ∀ slot, slotOf unmarshal (program s).2 r = some slot → slot.done = true

theorem ends_finish (v : Voice) : Ends unmarshal restore v.ref (v.finish : ResponsesProgram Usage) := by
  intro fragments events s h
  unfold Voice.finish
  by_cases hpending : (v.get s).started = true ∧ (v.get s).done = false
  · rw [if_pos hpending]
    have hslot : slotOf unmarshal s v.ref = some _ := (slotOf_ref v).trans (if_pos hpending.1)
    obtain ⟨hsets, htold, hsaid, hfollow⟩ := h.set (w := { v.get s with done := true }) v hpending.1 (.inl rfl)
    have hkept : toldOf restore fragments (v.set s { v.get s with done := true }) = toldOf restore fragments s := by
      cases v <;> rfl
    have hitem : (v.output s).body = v.body (v.get s).text := by cases v <;> rfl
    refine ⟨hfollow _ (hkept ▸ h.tells.finish hslot hsets ?_ ?_ rfl hpending.2 hitem ?_ ?_), hsets.other,
      fun slot hr => ?_⟩
    · cases v <;> rfl
    · cases v <;> rfl
    · cases v <;> simp [Voice.ended, Voice.get]
    · cases v <;> simp [Voice.ended, Voice.get, itemEvents, itemEventAt]
    · rw [hsets.slot] at hr
      cases hr
      rfl
  · rw [if_neg hpending, append_nil]
    refine ⟨h, fun _ _ => rfl, fun slot hr => ?_⟩
    rw [slotOf_ref, Voice.slot] at hr
    split_ifs at hr with hstarted
    rw [← some.inj hr]
    by_contra hdone
    exact hpending ⟨hstarted, by simpa using hdone⟩

theorem toolOutput_body (tool : ChatToResponsesStreamTool) (status : String) :
    (toolOutput unmarshal restore tool status).body = (toolOutput unmarshal restore tool "").body := by
  unfold toolOutput
  cases restore with
  | none => rfl
  | some restore =>
    simp only
    split_ifs
    · rfl
    · cases restore.reverseToolNames.lookup tool.name <;> rfl

theorem doneTool_spec {tool : ChatToResponsesStreamTool} (hdone : tool.done = false) (status : String) :
    let written : List (ChatToResponsesStreamEvent Usage) × _ := doneTool unmarshal restore status tool
    itemEvents tool.outputIndex written.1 = (if tool.announced then [] else [.added]) ++
        [.done (toolOutput unmarshal restore tool status)] ∧
      (∀ e ∈ written.1, e.outputIndex = some tool.outputIndex) ∧
      written.2 = { tool with done := true, announced := true } := by
  intro written
  have hrun : written = _ := if_neg (by simp [hdone])
  rw [hrun]
  refine ⟨?_, ?_, rfl⟩
  · cases tool.announced <;> by_cases htype : (toolOutput unmarshal restore tool status).type = .functionCall <;>
      simp [itemEvents, itemEventAt, toolAdded, htype]
  · cases tool.announced <;> by_cases htype : (toolOutput unmarshal restore tool status).type = .functionCall <;>
      simp [toolAdded, htype]

theorem ends_doneToolAt (c : ℤ) :
    Ends unmarshal restore (.tool c) (doneToolAt unmarshal c : ResponsesProgram Usage) := by
  intro fragments events s h
  cases hlookup : s.toolsByIndex.lookup c with
  | none =>
    have hrun : doneToolAt unmarshal c s = ([], s) := by
      unfold doneToolAt
      rw [hlookup]
    have hslot : slotOf unmarshal s (.tool c) = none := congrArg (Option.map _) hlookup
    rw [hrun, append_nil]
    refine ⟨h, fun _ _ => rfl, fun slot hr => ?_⟩
    rw [hslot] at hr
    cases hr
  | some tool =>
    have hslot : slotOf unmarshal s (.tool c) = some (toolSlot unmarshal restore tool) := by
      rw [← h.restored]
      exact congrArg (Option.map _) hlookup
    set written : List (ChatToResponsesStreamEvent Usage) × _ :=
      doneTool unmarshal restore s.outputStatus tool with hwritten
    have hrun : doneToolAt unmarshal c s = (written.1, s.setTool c written.2) := by
      unfold doneToolAt
      simp only [hlookup, h.restored]
      rfl
    have hsets : Sets unmarshal s (s.setTool c written.2) (.tool c) (toolSlot unmarshal restore written.2) :=
      ⟨by rw [slotOf_setTool, h.restored], fun r' hr' => slotOf_setTool_of_ne hr'⟩
    -- a call that is done stays as it is
    have hdone : written.2.done = true ∧ written.2.name = tool.name ∧ written.2.arguments = tool.arguments ∧
        written.2.outputIndex = tool.outputIndex := by
      cases htool : tool.done with
      | true =>
        have hsame : written = ([], tool) := if_pos htool
        rw [hsame]
        exact ⟨htool, rfl, rfl, rfl⟩
      | false =>
        rw [(doneTool_spec htool s.outputStatus).2.2]
        exact ⟨rfl, rfl, rfl, rfl⟩
    obtain ⟨hdone, hname, harguments, hout⟩ := hdone
    have htells : Tells unmarshal (toldOf restore fragments s) (events ++ written.1) (s.setTool c written.2) := by
      refine h.tells.touch (.old _ hslot hout rfl rfl) hsets (fun _ _ => rfl) ?_ ?_
      · intro e he
        rw [show (toolSlot unmarshal restore written.2).index = tool.outputIndex from hout]
        cases htool : tool.done with
        | true =>
          rw [show written = ([], tool) from if_pos htool] at he
          cases he
        | false => exact (doneTool_spec htool s.outputStatus).2.1 e he
      · intro before _ hstory
        rw [show (toolSlot unmarshal restore written.2).index = tool.outputIndex from hout]
        cases htool : tool.done with
        | true =>
          rw [show written = ([], tool) from if_pos htool]
          exact (append_nil before).symm ▸ hstory _ hslot
        | false =>
          obtain ⟨hevents, -, hnext⟩ := @doneTool_spec Usage unmarshal restore tool htool s.outputStatus
          rw [hevents]
          refine (hstory _ hslot).close htool ?_ hdone ?_ (toolOutput_body tool _)
          · rw [hwritten, hnext]
            rfl
          · rw [hwritten, hnext]
            rfl
    rw [hrun]
    have hfollows := h.tools c tool hlookup
    have hmade : MadeBy restore (callFragments c fragments) written.2 := ⟨hname.trans hfollows.name,
      harguments.trans hfollows.arguments, fun hnot => absurd (hdone.symm.trans hnot) (by decide)⟩
    obtain ⟨htools, hunknown⟩ := h.made hmade fun _ _ => rfl
    refine ⟨⟨htells, h.restored, h.voices, htools, hunknown⟩, hsets.other, fun slot hr => ?_⟩
    rw [hsets.slot] at hr
    rw [← some.inj hr]
    exact hdone

theorem closed_doneTools (cs : List ℤ) (h : Following unmarshal restore fragments events s) :
    let final := each (doneToolAt unmarshal) cs s
    Following unmarshal restore fragments (events ++ final.1) final.2 ∧
      (∀ r, (∀ c ∈ cs, r ≠ .tool c) → slotOf unmarshal final.2 r = slotOf unmarshal s r) ∧
      ∀ c ∈ cs, ∀ slot, slotOf unmarshal final.2 (.tool c) = some slot → slot.done = true := by
  induction cs generalizing events s with
  | nil =>
    refine ⟨?_, fun _ _ => rfl, forall_mem_nil _⟩
    exact (append_nil events).symm ▸ h
  | cons c cs ih =>
    obtain ⟨h₁, hother, hdone⟩ := ends_doneToolAt c fragments events s h
    obtain ⟨h₂, hother₂, hdone₂⟩ := ih h₁
    refine ⟨?_, fun r hr => ?_, fun c' hc' slot hslot => ?_⟩
    · rw [append_assoc] at h₂
      exact h₂
    · show slotOf unmarshal (each (doneToolAt unmarshal) cs _).2 r = _
      rw [hother₂ r fun c' hc' => hr c' (mem_cons_of_mem c hc'), hother r (hr c mem_cons_self)]
    · by_cases hmem : c' ∈ cs
      · exact hdone₂ c' hmem slot hslot
      · rcases mem_cons.mp hc' with rfl | hc'
        · have hsame := hother₂ (.tool c') fun c'' hc'' heq => hmem (by cases heq; exact hc'')
          exact hdone slot (hsame.symm.trans hslot)
        · exact absurd hc' hmem

theorem closed_doneDeltaEvents (h : Following unmarshal restore fragments events s) :
    Following unmarshal restore fragments (events ++ (doneDeltaEvents unmarshal s).1)
        (doneDeltaEvents unmarshal s).2 ∧ Closed unmarshal (doneDeltaEvents unmarshal s).2 := by
  obtain ⟨h₁, hother₁, hdone₁⟩ := ends_finish .text fragments events s h
  obtain ⟨h₂, hother₂, hdone₂⟩ := ends_finish .reasoning fragments _ _ h₁
  set second : List (ChatToResponsesStreamEvent Usage) × _ := Voice.reasoning.finish (Voice.text.finish s).2
  have hrun : doneDeltaEvents unmarshal s =
      ((Voice.text.finish s).1 ++ (second.1 ++ (each (doneToolAt unmarshal) (sortedTools second.2) second.2).1),
        (each (doneToolAt unmarshal) (sortedTools second.2) second.2).2) := rfl
  obtain ⟨h₃, hother₃, hdone₃⟩ := closed_doneTools (sortedTools second.2) h₂
  rw [hrun, ← append_assoc, ← append_assoc]
  refine ⟨h₃, fun r slot hslot => ?_⟩
  cases r with
  | message =>
    rw [hother₃ _ fun c _ => by simp, hother₂ _ (by simp [Voice.ref])] at hslot
    exact hdone₁ slot hslot
  | reasoning =>
    rw [hother₃ _ fun c _ => by simp] at hslot
    exact hdone₂ slot hslot
  | tool c =>
    refine hdone₃ c ?_ slot hslot
    by_contra hmem
    rw [hother₃ _ fun c' hc' heq => hmem (by cases heq; exact hc')] at hslot
    apply hmem
    unfold sortedTools
    rw [mem_insertionSort, ← AList.mem_keys, ← AList.lookup_isSome]
    obtain ⟨tool, htool, -⟩ := map_eq_some_iff.mp hslot
    rw [htool]
    rfl

/-! ### Chunks -/

variable (choice : Choice)

def Choice.ends : Bool :=
  match choice.finishReason with
  | none => false
  | some reason => GoText.trimSpace reason ≠ ""

def Choice.isEmpty : Bool :=
  choice.delta.getReasoningContent = "" && choice.delta.getContentString = "" && choice.delta.toolCalls.isEmpty

theorem following_toolCalls (toolCalls : List ToolCallResponse)
    (h : Following unmarshal restore fragments events s) (hp : Pending unmarshal s) :
    Following unmarshal restore (fragments ++ toolCalls)
        (events ++ (each (appendToolCallDelta unmarshal) toolCalls s).1)
        (each (appendToolCallDelta unmarshal) toolCalls s).2 ∧
      Pending unmarshal (each (appendToolCallDelta unmarshal) toolCalls s).2 := by
  induction toolCalls generalizing fragments events s with
  | nil =>
    rw [each_nil, append_nil, append_nil]
    exact ⟨h, hp⟩
  | cons toolCall toolCalls ih =>
    obtain ⟨h₁, hp₁⟩ := following_toolCall h hp toolCall
    have h₂ := ih h₁ hp₁
    rw [append_assoc, append_assoc] at h₂
    exact h₂

theorem finishChoice_some (reason : String) :
    (finishChoice unmarshal (some reason) : ResponsesProgram Usage) = if GoText.trimSpace reason ≠ "" then
        andThen (update (applyFinishReason reason)) (doneDeltaEvents unmarshal) else skip := by
  rw [finishChoice]

theorem following_finishChoice {choice : Choice} (h : Following unmarshal restore fragments events s) :
    Following unmarshal restore fragments (events ++ (finishChoice unmarshal choice.finishReason s).1)
        (finishChoice unmarshal choice.finishReason s).2 ∧
      (if choice.ends then Closed unmarshal (finishChoice unmarshal choice.finishReason s).2
        else (finishChoice unmarshal choice.finishReason s).2 = s) := by
  unfold Choice.ends
  cases choice.finishReason with
  | none =>
    refine ⟨?_, rfl⟩
    exact (append_nil events).symm ▸ h
  | some reason =>
    by_cases hblank : GoText.trimSpace reason ≠ ""
    · have hrun : finishChoice unmarshal (some reason) s =
          doneDeltaEvents unmarshal (applyFinishReason reason s) := by
        rw [finishChoice_some, if_pos hblank]
        rfl
      rw [hrun]
      simp only [hblank, ne_eq, not_false_eq_true, decide_true, if_true]
      exact closed_doneDeltaEvents (h.congr (sameItems_finishReason reason s))
    · have hrun : finishChoice unmarshal (some reason) s = ([], s) := by
        rw [finishChoice_some, if_neg hblank]
        rfl
      rw [hrun, append_nil]
      exact ⟨h, by simp [hblank]⟩

theorem following_speech (v : Voice) (text : String) (h : Following unmarshal restore fragments events s)
    (hp : Pending unmarshal s) :
    let program : ResponsesProgram Usage := if text ≠ "" then v.append text else skip
    Following unmarshal restore fragments (events ++ (program s).1) (program s).2 ∧ Pending unmarshal (program s).2 := by
  intro program
  by_cases hempty : text ≠ ""
  · have hrun : program = v.append text := if_pos hempty
    rw [hrun]
    exact following_append h v hp text
  · have hrun : program = Emit.skip := if_neg hempty
    rw [hrun]
    exact ⟨(append_nil events).symm ▸ h, hp⟩

theorem following_choice (h : Following unmarshal restore fragments events s) (hp : Pending unmarshal s) :
    Following unmarshal restore (fragments ++ choice.delta.toolCalls)
        (events ++ (choiceEvents unmarshal choice s).1) (choiceEvents unmarshal choice s).2 ∧
      (if choice.ends then Closed unmarshal (choiceEvents unmarshal choice s).2
        else Pending unmarshal (choiceEvents unmarshal choice s).2) := by
  obtain ⟨h₁, hp₁⟩ := following_speech .reasoning choice.delta.getReasoningContent h hp
  obtain ⟨h₂, hp₂⟩ := following_speech .text choice.delta.getContentString h₁ hp₁
  obtain ⟨h₃, hp₃⟩ := following_toolCalls choice.delta.toolCalls h₂ hp₂
  obtain ⟨h₄, hend⟩ := @following_finishChoice _ _ _ _ _ _ choice h₃
  unfold choiceEvents appendTextDelta appendReasoningDelta
  simp only [andThen_apply]
  rw [append_assoc, append_assoc, append_assoc] at h₄
  refine ⟨h₄, ?_⟩
  cases hends : choice.ends with
  | true =>
    rw [hends] at hend
    exact hend
  | false =>
    rw [hends] at hend
    have hsame : (finishChoice unmarshal choice.finishReason _).2 = _ := hend
    simp only [Bool.false_eq_true, if_false]
    rw [hsame]
    exact hp₃

theorem following_emptyChoice {choice : Choice} (hempty : choice.isEmpty = true)
    (h : Following unmarshal restore fragments events s) (hclosed : Closed unmarshal s) :
    Following unmarshal restore (fragments ++ choice.delta.toolCalls)
        (events ++ (choiceEvents unmarshal choice s).1) (choiceEvents unmarshal choice s).2 ∧
      Closed unmarshal (choiceEvents unmarshal choice s).2 := by
  unfold Choice.isEmpty at hempty
  simp only [Bool.and_eq_true, decide_eq_true_eq, List.isEmpty_iff] at hempty
  obtain ⟨⟨hreasoning, htext⟩, htools⟩ := hempty
  have hrun : choiceEvents unmarshal choice s = finishChoice unmarshal choice.finishReason s := by
    unfold choiceEvents
    rw [hreasoning, htext, htools]
    rfl
  obtain ⟨hfollowing, hend⟩ := @following_finishChoice _ _ _ _ _ _ choice h
  rw [hrun, htools, List.append_nil]
  refine ⟨hfollowing, ?_⟩
  cases hends : choice.ends with
  | true =>
    rw [hends] at hend
    exact hend
  | false =>
    rw [hends] at hend
    have hsame : (finishChoice unmarshal choice.finishReason s).2 = s := hend
    rw [hsame]
    exact hclosed

variable (chunk : ChatCompletionsStreamResponse Usage)

def ChatCompletionsStreamResponse.ends : Bool :=
  chunk.choices.any Choice.ends

def ChatCompletionsStreamResponse.isEmpty : Bool :=
  chunk.choices.all Choice.isEmpty

/-- After these chunks the events tell the stories of the items; all of them are done if a finish reason
came, and else none is. -/
def Followed (unmarshal : String → Option RawMessage) (restore : Option ResponsesToolRestoreMetadata)
    (chunks : List (ChatCompletionsStreamResponse Usage)) (events : List (ChatToResponsesStreamEvent Usage))
    (s : ChatToResponsesStreamState Usage) : Prop :=
  Following unmarshal restore (chunks.flatMap ChatCompletionsStreamResponse.toolCalls) events s ∧
    (if chunks.any ChatCompletionsStreamResponse.ends then Closed unmarshal s else Pending unmarshal s)

theorem itemEvents_sendCreated (s : ChatToResponsesStreamState Usage) (i : ℤ) :
    itemEvents i (sendCreated s).1 = [] ∧ SameItems s (sendCreated s).2 := by
  unfold sendCreated
  split_ifs with hsent
  · exact ⟨rfl, ⟨fun _ => rfl, rfl, rfl, fun _ => rfl, rfl, rfl⟩⟩
  · exact ⟨rfl, sameItems_created s⟩

theorem followed_chunk (usageFrom : Usage → Usage) {pre : List (ChatCompletionsStreamResponse Usage)}
    {chunk : ChatCompletionsStreamResponse Usage} (h : Followed unmarshal restore pre events s)
    (hsingle : chunk.choices.length ≤ 1) (hlast : pre.any ends = true → chunk.isEmpty = true) :
    Followed unmarshal restore (pre ++ [chunk])
      (events ++ (chatCompletionsStreamChunkToResponsesEvents unmarshal usageFrom chunk s).1)
      (chatCompletionsStreamChunkToResponsesEvents unmarshal usageFrom chunk s).2 := by
  obtain ⟨hfollowing, hdone⟩ := h
  set s₁ := applyChunkMetadata usageFrom chunk s
  have hsame₁ : SameItems s s₁ := sameItems_metadata usageFrom chunk s
  have hcreated := fun i => (itemEvents_sendCreated s₁ i).1
  have hsame₂ : SameItems s₁ (sendCreated s₁).2 := (itemEvents_sendCreated s₁ 0).2
  have hfollowing₂ : Following unmarshal restore (pre.flatMap toolCalls)
      (events ++ (sendCreated s₁).1) (sendCreated s₁).2 :=
    ((hfollowing.congr hsame₁).congr hsame₂).quiet hcreated
  have hrun : chatCompletionsStreamChunkToResponsesEvents unmarshal usageFrom chunk s =
      ((sendCreated s₁).1 ++ (each (choiceEvents unmarshal) chunk.choices (sendCreated s₁).2).1,
        (each (choiceEvents unmarshal) chunk.choices (sendCreated s₁).2).2) := rfl
  rw [hrun, ← append_assoc]
  unfold Followed
  rw [flatMap_append, flatMap_singleton, any_append, any_cons, any_nil, Bool.or_false]
  have hends : chunk.ends = chunk.choices.any Choice.ends := rfl
  have htools : chunk.toolCalls = chunk.choices.flatMap fun choice => choice.delta.toolCalls := rfl
  have hempty : chunk.isEmpty = chunk.choices.all Choice.isEmpty := rfl
  rw [hends, htools]
  rw [hempty] at hlast
  generalize chunk.choices = choices at hsingle hlast ⊢
  match choices, hsingle with
  | [], _ =>
    rw [each_nil, flatMap_nil, append_nil, append_nil, any_nil, Bool.or_false]
    refine ⟨hfollowing₂, ?_⟩
    split_ifs at hdone ⊢ with hany
    · exact (hdone.congr hsame₁).congr hsame₂
    · exact (hdone.congr hsame₁).congr hsame₂
  | [choice], _ =>
    rw [each_cons, each_nil, append_nil, flatMap_singleton, any_cons, any_nil, Bool.or_false]
    cases hany : pre.any ends with
    | true =>
      rw [hany] at hdone
      have hclosed : Closed unmarshal s := hdone
      have hchoice : choice.isEmpty = true := by simpa using hlast hany
      exact following_emptyChoice hchoice hfollowing₂ ((hclosed.congr hsame₁).congr hsame₂)
    | false =>
      rw [hany] at hdone
      have hpending : Pending unmarshal s := hdone
      rw [Bool.false_or]
      exact following_choice choice hfollowing₂ ((hpending.congr hsame₁).congr hsame₂)

theorem followed_start (id model : String) (created : ℤ) (usage : Usage) :
    Followed unmarshal restore [] [] (newChatToResponsesStreamState id model created usage restore) := by
  have hslot : ∀ r, slotOf unmarshal (newChatToResponsesStreamState id model created usage restore) r = none :=
    fun r => by cases r <;> rfl
  refine ⟨⟨⟨rfl, nodup_nil, fun r => ?_, fun j r slot hj => ?_, fun r slot hr => ?_, fun _ _ => rfl⟩, rfl,
    fun v _ => ?_, fun c tool hc => ?_, fun _ _ => rfl⟩, fun r slot hr => ?_⟩
  · rw [hslot]
    simp [newChatToResponsesStreamState]
  · cases hj
  · rw [hslot] at hr
    cases hr
  · cases v <;> exact ⟨rfl, rfl⟩
  · cases hc
  · rw [hslot] at hr
    cases hr

theorem followed_chunks (usageFrom : Usage → Usage) (id model : String) (created : ℤ) (usage : Usage)
    {chunks : List (ChatCompletionsStreamResponse Usage)} (hsingle : ∀ chunk ∈ chunks, chunk.choices.length ≤ 1)
    (hlast : chunks.Pairwise fun chunk later => chunk.ends = true → later.isEmpty = true) :
    let final := each (chatCompletionsStreamChunkToResponsesEvents unmarshal usageFrom) chunks
      (newChatToResponsesStreamState id model created usage restore)
    Followed unmarshal restore chunks final.1 final.2 := by
  intro final
  have hP : StepSys.Along (fun pre chunk => pre ++ [chunk])
      (fun (pre : List (ChatCompletionsStreamResponse Usage)) chunk => chunk.choices.length ≤ 1 ∧
        (pre.any ends = true → chunk.isEmpty = true)) [] chunks := by
    refine StepSys.along_trace (StepSys.along_of_forall hsingle _) fun pre chunk post hsplit hany => ?_
    obtain ⟨earlier, hearlier, hends⟩ := any_eq_true.mp hany
    rw [hsplit] at hlast
    exact (pairwise_append.mp hlast).2.2 earlier (by simpa using hearlier) chunk mem_cons_self hends
  exact each_trace (I := Followed unmarshal restore)
    (fun pre events s chunk hI hP => followed_chunk usageFrom hI hP.1 hP.2) (followed_start id model created usage) hP

end closing

/-! ### The `created` event -/

section created

def marks (s : ChatToResponsesStreamState Usage) : Bool × Bool := (s.sentCreated, s.finalized)

def createdOf (event : ChatToResponsesStreamEvent Usage) : List Unit :=
  if event.type = .created then [()] else []

abbrev Unmarked (program : ResponsesProgram Usage) : Prop :=
  Simulates marks createdOf program skip

theorem unmarked_speech (v : Voice) (text : String) :
    Unmarked (if text ≠ "" then v.append text else skip : ResponsesProgram Usage) := by
  have hstart : Unmarked (v.start : ResponsesProgram Usage) := by
    intro s
    unfold Voice.start
    split_ifs <;> cases v <;> exact ⟨rfl, rfl⟩
  have hwrite : Unmarked (v.write text : ResponsesProgram Usage) := fun s => by cases v <;> exact ⟨rfl, rfl⟩
  split_ifs
  · exact hstart.andThen hwrite
  · exact skip

theorem createdOf_writeFragment (restore : Option ResponsesToolRestoreMetadata) (toolCall : ToolCallResponse)
    (tool : ChatToResponsesStreamTool) :
    (writeFragment unmarshal restore toolCall tool : List (ChatToResponsesStreamEvent Usage) × _).1.flatMap
      createdOf = [] := by
  have hannounce : ∀ tool, (announceTool unmarshal restore tool : List
      (ChatToResponsesStreamEvent Usage) × _).1.flatMap createdOf = [] := by
    intro tool
    unfold announceTool
    split_ifs <;> rfl
  have hwrite : ∀ tool, (writeArguments unmarshal restore toolCall.function.arguments tool : List
      (ChatToResponsesStreamEvent Usage) × _).1.flatMap createdOf = [] := by
    intro tool
    unfold writeArguments sendArguments
    split_ifs <;> rfl
  unfold writeFragment
  rw [andThen_apply, andThen_apply, update_apply, nil_append, flatMap_append, hannounce, hwrite]
  rfl

theorem unmarked_appendToolCallDelta (toolCall : ToolCallResponse) :
    Unmarked (appendToolCallDelta unmarshal toolCall : ResponsesProgram Usage) := by
  intro s
  refine ⟨createdOf_writeFragment _ _ _, ?_⟩
  show marks (s.findTool (toolCall.index.getD 0) toolCall).2 = marks s
  unfold ChatToResponsesStreamState.findTool
  cases s.toolsByIndex.lookup (toolCall.index.getD 0) <;> rfl

theorem unmarked_doneDeltaEvents : Unmarked (doneDeltaEvents unmarshal : ResponsesProgram Usage) := by
  have hvoice : ∀ v : Voice, Unmarked (v.finish : ResponsesProgram Usage) := by
    intro v s
    unfold Voice.finish
    split_ifs <;> cases v <;> exact ⟨rfl, rfl⟩
  have htool : ∀ c, Unmarked (doneToolAt unmarshal c : ResponsesProgram Usage) := by
    intro c s
    unfold doneToolAt
    cases s.toolsByIndex.lookup c with
    | none => exact ⟨rfl, rfl⟩
    | some tool =>
      refine ⟨?_, rfl⟩
      show flatMap createdOf (doneTool unmarshal s.toolRestore s.outputStatus tool).1 = []
      unfold doneTool
      split_ifs <;> rfl
  have htools : Unmarked (fun s => each (doneToolAt unmarshal) (sortedTools s) s :
      ResponsesProgram Usage) := fun s => (each_skip fun c _ => htool c) s
  exact (hvoice .text).andThen ((hvoice .reasoning).andThen htools)

theorem unmarked_choiceEvents (choice : Choice) :
    Unmarked (choiceEvents unmarshal choice : ResponsesProgram Usage) := by
  have hfinish : Unmarked (finishChoice unmarshal choice.finishReason : ResponsesProgram Usage) := by
    cases choice.finishReason with
    | none => exact skip
    | some reason =>
      have happly : Unmarked (update (applyFinishReason reason) : ResponsesProgram Usage) := by
        refine hidden fun s => ?_
        rw [applyFinishReason, marks, marks]
      rw [finishChoice_some]
      split_ifs
      · exact happly.andThen unmarked_doneDeltaEvents
      · exact skip
  have htools : Unmarked (each (appendToolCallDelta unmarshal) choice.delta.toolCalls :
      ResponsesProgram Usage) := each_skip fun toolCall _ => unmarked_appendToolCallDelta toolCall
  have hall := (unmarked_speech .reasoning choice.delta.getReasoningContent).andThen
    ((unmarked_speech .text choice.delta.getContentString).andThen (htools.andThen hfinish))
  intro s
  exact hall s

def sendMark : Program (Bool × Bool) Unit := fun marks =>
  if marks.1 then ([], marks) else ([()], (true, marks.2))

variable (usageFrom : Usage → Usage)

variable (chunk : ChatCompletionsStreamResponse Usage)

theorem marked_chunk :
    Simulates marks createdOf (chatCompletionsStreamChunkToResponsesEvents unmarshal usageFrom chunk) sendMark := by
  have hmetadata : Unmarked (update (applyChunkMetadata usageFrom chunk) : ResponsesProgram Usage) :=
    hidden fun s => rfl
  have hsend : Simulates marks createdOf (sendCreated : ResponsesProgram Usage) sendMark := by
    intro s
    unfold sendCreated sendMark
    by_cases hsent : s.sentCreated = true
    · have hmark : (marks s).1 = true := hsent
      rw [if_pos hsent, if_pos hmark]
      exact ⟨rfl, rfl⟩
    · have hmark : ¬ (marks s).1 = true := hsent
      rw [if_neg hsent, if_neg hmark]
      exact ⟨rfl, rfl⟩
  have hchoices : Unmarked (each (choiceEvents unmarshal) chunk.choices : ResponsesProgram Usage) :=
    each_skip fun choice _ => unmarked_choiceEvents choice
  intro s
  obtain ⟨hevents, hstate⟩ := hmetadata.andThen (hsend.andThen hchoices) s
  refine ⟨hevents.trans ?_, hstate⟩
  show [] ++ ((sendMark (marks s)).1 ++ []) = _
  rw [nil_append, append_nil]

variable (chunks : List (ChatCompletionsStreamResponse Usage))

theorem each_sendMark (b : Bool) : each (fun _ => sendMark) chunks (true, b) = ([], (true, b)) := by
  induction chunks with
  | nil => rfl
  | cons chunk chunks ih =>
    rw [each_cons, show sendMark (true, b) = ([], (true, b)) from rfl, ih]
    rfl

theorem marked_chunks (usageFrom : Usage → Usage) (chunks : List (ChatCompletionsStreamResponse Usage))
    {s : ChatToResponsesStreamState Usage} (hs : marks s = (false, false)) :
    let final := each (chatCompletionsStreamChunkToResponsesEvents unmarshal usageFrom) chunks s
    final.1.flatMap createdOf = (if chunks = [] then [] else [()]) ∧ final.2.finalized = false := by
  intro final
  have hall : Simulates marks createdOf (each (chatCompletionsStreamChunkToResponsesEvents unmarshal usageFrom) chunks)
      (each (fun _ => sendMark) chunks) :=
    each_map fun chunk _ => marked_chunk usageFrom chunk
  obtain ⟨hevents, hstate⟩ := hall s
  rw [hs] at hevents hstate
  cases chunks with
  | nil => exact ⟨hevents, congrArg Prod.snd hstate⟩
  | cons chunk chunks =>
    have hrun : each (fun _ => sendMark) (chunk :: chunks) (false, false) = ([()], (true, false)) := by
      rw [each_cons, show sendMark (false, false) = ([()], (true, false)) from rfl, each_sendMark]
      rfl
    rw [hrun] at hevents hstate
    refine ⟨?_, congrArg Prod.snd hstate⟩
    rw [if_neg (cons_ne_nil _ _)]
    exact hevents

theorem chunks_head {s : ChatToResponsesStreamState Usage} (hs : s.sentCreated = false) :
    ∃ first rest, (each (chatCompletionsStreamChunkToResponsesEvents unmarshal usageFrom) (chunk :: chunks)
      s).1 = first :: rest ∧ first.type = .created := by
  have hsend : ∃ first, (sendCreated (applyChunkMetadata usageFrom chunk s)).1 = [first] ∧ first.type = .created := by
    have hnot : ¬ (applyChunkMetadata usageFrom chunk s).sentCreated = true := by
      rw [show (applyChunkMetadata usageFrom chunk s).sentCreated = s.sentCreated from rfl, hs]
      decide
    unfold sendCreated
    rw [if_neg hnot]
    exact ⟨_, rfl, rfl⟩
  obtain ⟨first, hfirst, htype⟩ := hsend
  have hrun : (chatCompletionsStreamChunkToResponsesEvents unmarshal usageFrom chunk s).1 =
      (sendCreated (applyChunkMetadata usageFrom chunk s)).1 ++ (each (choiceEvents unmarshal) chunk.choices
        (sendCreated (applyChunkMetadata usageFrom chunk s)).2).1 := rfl
  rw [each_cons, hrun, hfirst]
  exact ⟨first, _, rfl, htype⟩

end created

/-! ### The final response -/

section final

theorem value_body (item : ResponsesOutput) : item.body.value = item.value := rfl

variable {slot : Slot}

theorem Story.closed_iff (h : Story slot told before) (hdone : slot.done = true) (hbody : item.body = slot.body) :
    (∃ texts done, before = .added :: texts.map (.delta (deltaType item.type)) ++ [.done done] ∧
        done.body = item.body ∧ (item.type.streams = true → String.join texts = item.value)) ↔
      (slot.body.type.streams = true → told = slot.body.value) := by
  have htype : item.type = slot.body.type := by
    rw [← hbody]
    rfl
  have hvalue : item.value = slot.body.value := by rw [← value_body, hbody]
  obtain ⟨texts, finished, rfl, rfl, hnot, hfinished⟩ := h
  rw [hdone] at hfinished
  obtain ⟨done, rfl, hitem⟩ : ∃ item : ResponsesOutput, finished = [item] ∧ item.body = slot.body := hfinished
  have hadded : slot.added = true := by
    by_contra hne
    exact cons_ne_nil _ _ (hnot (by simpa using hne)).2
  rw [hadded, htype, hvalue]
  constructor
  · rintro ⟨texts', done', hevents, -, hstreams⟩ htypes
    rw [← hstreams htypes]
    have hinit := (append_inj' hevents rfl).1
    have hmap := cons_injective hinit
    have hinjective : Function.Injective (ItemEvent.delta (deltaType slot.body.type)) := by
      intro a b hab
      cases hab
      rfl
    rw [map_injective_iff.mpr hinjective hmap]
  · intro hstreams
    exact ⟨texts, done, rfl, hitem.trans hbody.symm, hstreams⟩

theorem slotOf_body {v : Voice} (hslot : slotOf unmarshal s v.ref = some slot) : slot.body = v.body (v.get s).text := by
  rw [slotOf_ref, Voice.slot] at hslot
  split_ifs at hslot
  rw [← some.inj hslot]

theorem outputAt_body {r : ChatToResponsesOutputRef} (hslot : slotOf unmarshal s r = some slot) :
    ∃ item, outputAt unmarshal s r = some item ∧ item.body = slot.body := by
  cases r with
  | message => exact ⟨_, rfl, (@slotOf_body _ _ _ _ .text hslot).symm⟩
  | reasoning => exact ⟨_, rfl, (@slotOf_body _ _ _ _ .reasoning hslot).symm⟩
  | tool c =>
    obtain ⟨tool, htool, rfl⟩ := map_eq_some_iff.mp hslot
    refine ⟨toolOutput unmarshal s.toolRestore tool s.outputStatus, ?_, toolOutput_body tool _⟩
    show Option.map _ (s.toolsByIndex.lookup c) = _
    rw [htool]
    rfl

def CallsTold (restore : Option ResponsesToolRestoreMetadata) (fragments : List ToolCallResponse)
    (s : ChatToResponsesStreamState Usage) : Prop :=
  ∀ c tool, s.toolsByIndex.lookup c = some tool →
    toolType restore (nameOf (callFragments c fragments)) = .functionCall →
      (heard restore (callFragments c fragments)).told = argumentsOfCall (callFragments c fragments)

variable (h : Following unmarshal restore fragments events s)

include h in
theorem told_value_iff : (∀ r slot, slotOf unmarshal s r = some slot → slot.body.type.streams = true →
        toldOf restore fragments s r = slot.body.value) ↔ CallsTold restore fragments s := by
  have htool : ∀ c tool, s.toolsByIndex.lookup c = some tool →
      slotOf unmarshal s (.tool c) = some (toolSlot unmarshal restore tool) := by
    intro c tool hlookup
    rw [← h.restored]
    exact congrArg (Option.map _) hlookup
  have hbody : ∀ tool, (toolSlot unmarshal restore tool).body.type = toolType restore tool.name :=
    fun tool => toolOutput_type unmarshal tool ""
  have hvalue : ∀ tool, toolType restore tool.name = .functionCall →
      (toolSlot unmarshal restore tool).body.value = tool.arguments := by
    intro tool htype
    have hargs := toolOutput_arguments unmarshal "" htype
    unfold toolSlot ResponsesOutput.value
    rw [show (toolOutput unmarshal restore tool "").body.type = .functionCall from
      (toolOutput_type unmarshal tool "").trans htype]
    exact hargs
  constructor
  · intro hall c tool hlookup htype
    have hfollows := h.tools c tool hlookup
    rw [← hfollows.name] at htype
    have htold := hall _ _ (htool c tool hlookup) (by rw [hbody, htype]; rfl)
    rw [hvalue tool htype, hfollows.arguments] at htold
    exact htold
  · intro hall r slot hslot hstreams
    cases r with
    | message =>
      rw [@slotOf_body _ _ _ _ .text hslot]
      simp [toldOf, Voice.body, Voice.get, ResponsesOutput.value]
    | reasoning =>
      rw [@slotOf_body _ _ _ _ .reasoning hslot]
      simp [toldOf, Voice.body, Voice.get, ResponsesOutput.value]
    | tool c =>
      obtain ⟨tool, hlookup, rfl⟩ := map_eq_some_iff.mp hslot
      rw [h.restored] at hstreams ⊢
      have hfollows := h.tools c tool hlookup
      have htype : toolType restore tool.name = .functionCall := by
        rw [hbody] at hstreams
        by_contra hne
        obtain ⟨hname, m, rfl, hdeclared⟩ := toolType_ne hne
        simp [toolType, hname, hdeclared, ResponsesOutputType.streams] at hstreams
      rw [hvalue tool htype, hfollows.arguments]
      rw [hfollows.name] at htype
      exact hall c tool hlookup htype

theorem getElem?_filterMap_all {α β : Type} {f : α → Option β} {l : List α} (h : ∀ a ∈ l, ∃ b, f a = some b) :
    (l.filterMap f).length = l.length ∧ ∀ j : ℕ, (l.filterMap f)[j]? = l[j]?.bind f := by
  induction l with
  | nil => simp
  | cons a l ih =>
    obtain ⟨b, hb⟩ := h a mem_cons_self
    obtain ⟨hlength, hget⟩ := ih fun c hc => h c (mem_cons_of_mem a hc)
    rw [filterMap_cons_some hb]
    refine ⟨by simp [hlength], fun j => ?_⟩
    cases j with
    | zero => simp [hb]
    | succ j => simpa using hget j

theorem itemEvents_terminal (i : ℤ) (events : List (ChatToResponsesStreamEvent Usage))
    (s : ChatToResponsesStreamState Usage) :
    itemEvents i (events ++ [terminalEvent unmarshal s]) = itemEvents i events := by
  rw [itemEvents_append]
  exact append_nil _

include h in
theorem output_order : (finalResponse unmarshal s).output.length = s.outputOrder.length ∧ ∀ j : ℕ,
      (finalResponse unmarshal s).output[j]? = s.outputOrder[j]?.bind (outputAt unmarshal s) := by
  refine getElem?_filterMap_all fun r hr => ?_
  obtain ⟨slot, hslot⟩ := ne_none_iff_exists'.mp ((h.tells.listed r).mp hr)
  obtain ⟨item, hitem, -⟩ := outputAt_body hslot
  exact ⟨item, hitem⟩

include h in
theorem items_iff (hclosed : Closed unmarshal s) :
    (∀ (j : ℕ) item, (finalResponse unmarshal s).output[j]? = some item → ∃ texts done,
        itemEvents j events = .added :: texts.map (.delta (deltaType item.type)) ++ [.done done] ∧
          done.body = item.body ∧ (item.type.streams = true → String.join texts = item.value)) ↔
      ∀ r slot, slotOf unmarshal s r = some slot → slot.body.type.streams = true →
        toldOf restore fragments s r = slot.body.value := by
  obtain ⟨-, houtput⟩ := output_order h
  constructor
  · intro hitems r slot hslot
    obtain ⟨j, hj, hindex⟩ := h.tells.place hslot
    obtain ⟨item, hitem, hbody⟩ := outputAt_body hslot
    have hstory := h.tells.story r slot hslot
    rw [hindex] at hstory
    refine (hstory.closed_iff (hclosed r slot hslot) hbody).mp (hitems j item ?_)
    rw [houtput, hj]
    exact hitem
  · intro htold j item hj
    rw [houtput] at hj
    obtain ⟨r, hr, hitem⟩ := bind_eq_some_iff.mp hj
    obtain ⟨slot, hslot⟩ := ne_none_iff_exists'.mp ((h.tells.listed r).mp (mem_of_getElem? hr))
    obtain ⟨item', hitem', hbody⟩ := outputAt_body hslot
    rw [hitem] at hitem'
    cases hitem'
    have hstory := h.tells.story r slot hslot
    rw [h.tells.placed j r slot hr hslot] at hstory
    exact (hstory.closed_iff (hclosed r slot hslot) hbody).mpr (htold r slot hslot)

include h in
theorem silent_outside {i : ℤ}
    (hi : i < 0 ∨ ((finalResponse unmarshal s).output.length : ℤ) ≤ i) : itemEvents i events = [] := by
  refine h.tells.silent i fun r slot hslot hindex => ?_
  obtain ⟨j, hj, hslotIndex⟩ := h.tells.place hslot
  obtain ⟨hlt, -⟩ := List.getElem?_eq_some_iff.mp hj
  rw [(output_order h).1] at hi
  omega

include h in
/-- **The end of a stream**: it is consistent if it began as it should and the calls are told. -/
theorem consistent_iff (hclosed : Closed unmarshal s) : Consistent (events ++ [terminalEvent unmarshal s]) ↔
      (∃ first rest, events = first :: rest ∧ first.type = .created ∧ ∀ e ∈ rest, e.type ≠ .created) ∧
      CallsTold restore fragments s := by
  have hterminal : (terminalEvent unmarshal s).type = .completed ∨ (terminalEvent unmarshal s).type = .incomplete := by
    show (if s.status = "incomplete" then ResponsesEventType.incomplete else .completed) = _ ∨
      (if s.status = "incomplete" then ResponsesEventType.incomplete else .completed) = _
    split_ifs <;> simp
  rw [← told_value_iff h, ← items_iff h hclosed]
  constructor
  · rintro ⟨⟨first, rest, hevents, hfirst, hrest⟩, init, last, response, hinit, -, hresponse, hitems, -⟩
    obtain ⟨rfl, hlast⟩ := append_inj' hinit rfl
    cases hlast
    cases hresponse
    refine ⟨?_, fun j item hj => ?_⟩
    · cases events with
      | nil =>
        cases hevents
        rw [hfirst] at hterminal
        simp at hterminal
      | cons e es =>
        obtain ⟨rfl, rfl⟩ := cons_eq_cons.mp hevents
        exact ⟨e, es, rfl, hfirst, fun e' he' => hrest e' (mem_append_left _ he')⟩
    · have hitem := hitems j item hj
      rw [itemEvents_terminal] at hitem
      exact hitem
  · rintro ⟨⟨first, rest, rfl, hfirst, hrest⟩, hitems⟩
    refine ⟨⟨first, rest ++ [terminalEvent unmarshal s], rfl, hfirst, fun e he => ?_⟩, _, _, _, rfl, hterminal,
      rfl, fun j item hj => ?_, fun i hi => ?_⟩
    · rcases mem_append.mp he with he | he
      · exact hrest e he
      · rw [mem_singleton.mp he]
        rcases hterminal with hterminal | hterminal <;> rw [hterminal] <;> decide
    · rw [itemEvents_terminal]
      exact hitems j item hj
    · rw [itemEvents_terminal]
      exact silent_outside h hi

end final

/-! ### Whole streams -/

section stream

/-- A function call whose deltas are complete: it has no arguments, or it was announced in time. -/
def ToldWhole (restore : Option ResponsesToolRestoreMetadata) (fragments : List ToolCallResponse) : Prop :=
  toolType restore (nameOf fragments) = .functionCall →
    argumentsOfCall fragments = "" ∨ Announced restore fragments
  deriving Decidable

theorem toldWhole_iff (h : Following unmarshal restore fragments events s) : CallsTold restore fragments s ↔
      ∀ toolCall ∈ fragments, ToldWhole restore (callFragments (toolCall.index.getD 0) fragments) := by
  constructor
  · intro hall toolCall hmem htype
    have hne : callFragments (toolCall.index.getD 0) fragments ≠ [] := by
      refine ne_nil_of_mem (a := toolCall) ?_
      simpa [callFragments] using hmem
    cases hlookup : s.toolsByIndex.lookup (toolCall.index.getD 0) with
    | none => exact absurd (h.unknown _ hlookup) hne
    | some tool => exact told_eq_arguments_iff.mp (hall _ tool hlookup htype)
  · intro hall c tool _ htype
    rw [told_eq_arguments_iff]
    by_cases hnil : callFragments c fragments = []
    · rw [hnil]
      exact .inl rfl
    · obtain ⟨toolCall, hmem⟩ := exists_mem_of_ne_nil _ hnil
      obtain ⟨hfragment, hc⟩ := mem_filter.mp hmem
      have hc' : toolCall.index.getD 0 = c := by simpa using hc
      rw [← hc'] at htype ⊢
      exact hall toolCall hfragment htype

theorem created_iff {unmarshal : String → Option RawMessage} (usageFrom : Usage → Usage)
    (chunks : List (ChatCompletionsStreamResponse Usage)) {s : ChatToResponsesStreamState Usage}
    (hs : marks s = (false, false)) :
    let final := each (chatCompletionsStreamChunkToResponsesEvents unmarshal usageFrom) chunks s
    (∃ first rest, final.1 ++ (doneDeltaEvents unmarshal final.2).1 = first :: rest ∧ first.type = .created ∧
        ∀ e ∈ rest, e.type ≠ .created) ↔ chunks ≠ [] := by
  intro final
  have hcreated : (final.1 ++ (doneDeltaEvents unmarshal final.2).1).flatMap createdOf =
      if chunks = [] then [] else [()] := by
    rw [flatMap_append, (marked_chunks usageFrom chunks hs).1, (unmarked_doneDeltaEvents final.2).1]
    exact append_nil _
  constructor
  · rintro ⟨first, rest, hevents, hfirst, -⟩ hnil
    rw [hevents, if_pos hnil, flatMap_cons] at hcreated
    simp [createdOf, hfirst] at hcreated
  · intro hne
    rw [if_neg hne] at hcreated
    obtain ⟨chunk, rest, rfl⟩ := exists_cons_of_ne_nil hne
    obtain ⟨first, rest', hevents, hfirst⟩ := @chunks_head Usage unmarshal usageFrom chunk rest s (congrArg Prod.fst hs)
    refine ⟨first, rest' ++ (doneDeltaEvents unmarshal final.2).1, ?_, hfirst, fun e he htype => ?_⟩
    · rw [← cons_append, ← hevents]
    · have hnil : (rest' ++ (doneDeltaEvents unmarshal final.2).1).flatMap createdOf = [] := by
        rw [show final.1 = first :: rest' from hevents, cons_append, flatMap_cons,
          show createdOf first = [()] from if_pos hfirst] at hcreated
        exact cons_injective hcreated
      have hempty := flatMap_eq_nil_iff.mp hnil e he
      simp [createdOf, htype] at hempty

/-- **Chat stream to Responses stream**: with single choices and the finish reason on the last chunk with
content, the events are consistent exactly if a chunk came and the deltas of every call are complete. -/
theorem responsesStream_consistent_iff (unmarshal : String → Option RawMessage) (usageFrom : Usage → Usage)
    (id model : String) (created : ℤ) (usage : Usage) (restore : Option ResponsesToolRestoreMetadata)
    (chunks : List (ChatCompletionsStreamResponse Usage))
    (hsingle : ∀ chunk ∈ chunks, chunk.choices.length ≤ 1)
    (hlast : chunks.Pairwise fun chunk later => chunk.ends = true → later.isEmpty = true) :
    Consistent (responsesStream unmarshal usageFrom chunks
        (newChatToResponsesStreamState id model created usage restore)).1 ↔
      chunks ≠ [] ∧ ∀ toolCall ∈ chunks.flatMap ChatCompletionsStreamResponse.toolCalls,
        ToldWhole restore (callFragments (toolCall.index.getD 0)
          (chunks.flatMap ChatCompletionsStreamResponse.toolCalls)) := by
  have hstart : marks (newChatToResponsesStreamState id model created usage restore) = (false, false) := rfl
  have hfollowed := (@followed_chunks Usage unmarshal restore usageFrom id model created usage chunks hsingle
    hlast).1
  have hmarked := (@marked_chunks Usage unmarshal usageFrom chunks _ hstart).2
  have hcreated := @created_iff Usage unmarshal usageFrom chunks _ hstart
  simp only at hcreated
  unfold responsesStream
  rw [andThen_apply]
  generalize each (chatCompletionsStreamChunkToResponsesEvents unmarshal usageFrom) chunks
    (newChatToResponsesStreamState id model created usage restore) = final at hfollowed hmarked hcreated ⊢
  obtain ⟨hdone, hclosed⟩ := closed_doneDeltaEvents hfollowed
  have hsame := sameItems_finalized (doneDeltaEvents unmarshal final.2).2
  have hfinal : (finalizeChatCompletionsStreamToResponses unmarshal final.2).1 =
      (doneDeltaEvents unmarshal final.2).1 ++
        [terminalEvent unmarshal { (doneDeltaEvents unmarshal final.2).2 with finalized := true }] := by
    unfold finalizeChatCompletionsStreamToResponses
    rw [if_neg (by simp [hmarked])]
    rfl
  rw [hfinal, ← append_assoc, consistent_iff (hdone.congr hsame) (hclosed.congr hsame), hcreated,
    toldWhole_iff (hdone.congr hsame)]

def oneChoice (delta : ChoiceDelta) (finishReason : Option String) : ChatCompletionsStreamResponse Unit :=
  { choices := [⟨delta, finishReason⟩] }

def interleaved : List (ChatCompletionsStreamResponse Unit) :=
  [oneChoice { reasoningContent := some "r" } none,
    oneChoice { content := some "a", toolCalls := [⟨some 1, "x", ⟨"n_", ""⟩⟩] } none,
    oneChoice { toolCalls := [⟨some 1, "", ⟨"", "u"⟩⟩, ⟨some 0, "", ⟨"g", "v"⟩⟩] } none,
    oneChoice { toolCalls := [⟨some 1, "", ⟨"f", "w"⟩⟩] } (some "tool_calls"), { usage := some () }]

def renamed : ResponsesToolRestoreMetadata where
  reverseToolNames := AList.singleton "n_f" ⟨"n", "f"⟩
  toolSearchDeclared := true

theorem interleaved_consistent : Consistent (responsesStream (fun _ => none) (fun u => u) interleaved
      (newChatToResponsesStreamState "id" "m" 0 () (some renamed))).1 :=
  (responsesStream_consistent_iff (fun _ => none) (fun u => u) "id" "m" 0 () (some renamed) interleaved
    (by decide) (by decide)).mpr (by decide)

def unannounced : List (ChatCompletionsStreamResponse Unit) :=
  [oneChoice { toolCalls := [⟨some 0, "", ⟨"n_", "u"⟩⟩] } (some "tool_calls")]

/-- The call is announced when it is done, and its arguments are never sent as a delta. -/
theorem unannounced_call_inconsistent : (∀ chunk ∈ unannounced, chunk.choices.length ≤ 1) ∧
      (unannounced.Pairwise fun chunk later => chunk.ends = true → later.isEmpty = true) ∧
      ¬ Consistent (responsesStream (fun _ => none) (fun u => u) unannounced
        (newChatToResponsesStreamState "id" "m" 0 () (some renamed))).1 := by
  refine ⟨by decide, by decide, ?_⟩
  rintro ⟨-, init, last, response, hevents, -, hresponse, hitems, -⟩
  set item : ResponsesOutput :=
    { type := .functionCall, id := "id_call_0", status := "completed", callId := "id_call_0", name := "n_",
      arguments := .string "u" }
  have hlisted : (((responsesStream (fun _ => none) (fun u => u) unannounced
      (newChatToResponsesStreamState "id" "m" 0 () (some renamed))).1.getLast?.bind fun e => e.response).bind
        fun response => response.output[0]?) = some item := by decide
  have hsaid : itemEvents 0 (responsesStream (fun _ => none) (fun u => u) unannounced
      (newChatToResponsesStreamState "id" "m" 0 () (some renamed))).1 = [.added, .done item] := by decide
  rw [hevents, getLast?_concat, bind_some, hresponse, bind_some] at hlisted
  obtain ⟨texts, done, htexts, -, hvalue⟩ := hitems 0 item hlisted
  rw [show ((0 : ℕ) : ℤ) = 0 from rfl, hsaid] at htexts
  have hnil : texts = [] := by
    have hlength := congrArg length htexts
    simp at hlength
    exact hlength
  rw [hnil] at hvalue
  exact absurd (hvalue rfl) (by decide)

end stream

end WynthApi.Relay
