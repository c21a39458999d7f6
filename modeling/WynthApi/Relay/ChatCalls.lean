import WynthApi.Relay.CallSteps
import WynthApi.Relay.ChatText

/-!
# The tool calls of a converted Responses stream

A stream is a `CallStream` if each function call keeps one output index and one item id, and its items
come with its arguments or with none.  `CallsPreserved` says that the chat chunks hold each call once:
under one index, with its arguments and its name.

The converter does to the tool book what the tool events of a stream do, one after the other (`calls_chatStep`),
so that the chunks hold what the fragments tell.  An event can only be told apart by the names it carries: the
calls are preserved if every event fits the ones before it (`chatStream_calls`).
-/

namespace WynthApi.Relay

open Emit List ChatCompletionsStreamResponse Simulates

section simulation

variable {Usage : Type}

/-- What a stream event says of tool calls; a terminal response lists items without an output index. -/
def toolEvents (event : ResponsesStreamResponse Usage) : List (ToolEvent Usage) :=
  match event.type with
  | .outputItemAdded | .outputItemDone =>
    match event.item with
    | none => []
    | some item => if item.type.isTool then [.item event] else []
  | .functionArgsDelta | .customToolInputDelta => [.argsDelta event]
  | .functionArgsDone | .customToolInputDone => [.argsDone event]
  | .completed | .done | .incomplete =>
    ((outputsOf event.response).filter fun o => o.type.isTool).map fun o => .item { item := some o }
  | _ => []

abbrev Calls (program : ChatProgram Usage) (book : Program ToolBook ToolCallResponse) : Prop :=
  Simulates ResponsesToChatStreamState.book ChatCompletionsStreamResponse.toolCalls program book

theorem calls_ensureStart : Calls (ensureStart : ChatProgram Usage) skip := by
  intro s
  unfold ensureStart
  split_ifs with h
  · exact ⟨rfl, rfl⟩
  · exact ⟨rfl, rfl⟩

theorem calls_send (delta : ChoiceDelta) : Calls (send delta : ChatProgram Usage) (write fun _ => delta.toolCalls) := by
  have hwrite : Calls (write fun s => [makeChunk s delta none] : ChatProgram Usage)
      (write fun _ => delta.toolCalls) := by
    refine write fun s => ?_
    simp [makeChunk, toolCalls]
  exact calls_ensureStart.andThen hwrite

theorem calls_textDelta (delta : String) : Calls (textDelta delta : ChatProgram Usage) skip := by
  unfold textDelta
  split_ifs
  · exact skip
  · have hupdate : Calls (update fun s => { s with hasSentText := true } : ChatProgram Usage)
        skip := hidden fun _ => rfl
    exact hupdate.andThen (calls_send _)

theorem calls_reasoningDelta (delta : String) : Calls (reasoningDelta delta : ChatProgram Usage) skip := by
  intro s
  unfold reasoningDelta
  split_ifs
  · exact ⟨rfl, rfl⟩
  · have hupdate : Calls (update reasoningSent : ChatProgram Usage) skip := hidden fun _ => rfl
    exact ((calls_send _).andThen hupdate) s

theorem calls_sendTools (program : Program ToolBook ToolCallResponse) :
    Calls (sendTools program : ChatProgram Usage) program := by
  have hfragment : ∀ fragment, Calls (sendFragment fragment : ChatProgram Usage) (write fun _ => [fragment]) := by
    intro fragment s
    have hupdate : Calls (update fun s => { s with sawToolCall := true } : ChatProgram Usage)
        skip := hidden fun _ => rfl
    exact ((calls_send { toolCalls := [fragment] }).andThen hupdate) s
  have hwrites : ∀ (fragments : List ToolCallResponse) (b : ToolBook),
      each (fun fragment => write fun _ => [fragment]) fragments b = (fragments, b) := by
    intro fragments b
    induction fragments with
    | nil => rfl
    | cons fragment fragments ih =>
      rw [each_cons, write_apply, ih]
      rfl
  intro s
  have hall : Calls (each sendFragment (program s.book).1 : ChatProgram Usage) _ :=
    each_map fun fragment _ => hfragment fragment
  have hs := hall { s with book := (program s.book).2 }
  rw [hwrites] at hs
  exact hs

theorem calls_single (t : ToolEvent Usage) :
    Calls (sendTools t.program : ChatProgram Usage) (each ToolEvent.program [t]) := by
  intro s
  obtain ⟨hfragments, hbook⟩ := @calls_sendTools Usage t.program s
  refine ⟨?_, hbook⟩
  rw [each_cons, each_nil, append_nil]
  exact hfragments

theorem calls_terminalOutputChunks (response : Option (OpenAIResponsesResponse Usage)) :
    Calls (terminalOutputChunks response : ChatProgram Usage) (each ToolEvent.program
      (((outputsOf response).filter fun o => o.type.isTool).map fun o =>
        (.item { item := some o } : ToolEvent Usage))) := by
  have hone : ∀ o : ResponsesOutput, Calls (terminalOutput o : ChatProgram Usage)
      (each ToolEvent.program (if o.type.isTool then
        [(.item { item := some o } : ToolEvent Usage)] else [])) := by
    intro o s
    unfold terminalOutput
    cases htype : o.type with
    | message =>
      simp only [ResponsesOutputType.isTool, Bool.false_eq_true, if_false]
      split_ifs with hsent
      · exact ⟨rfl, rfl⟩
      · exact calls_textDelta _ s
    | reasoning =>
      simp only [ResponsesOutputType.isTool, Bool.false_eq_true, if_false]
      split_ifs with hsent
      · exact ⟨rfl, rfl⟩
      · exact calls_reasoningDelta _ s
    | functionCall | customToolCall =>
      have h := @calls_single Usage (.item { item := some o }) s
      rw [ToolEvent.program] at h
      simp only [ResponsesOutputType.isTool, if_true]
      exact h
    | toolSearchCall | other => exact ⟨rfl, rfl⟩
  have hall : Calls (terminalOutputChunks response : ChatProgram Usage) _ :=
    each fun o (_ : o ∈ outputsOf response) => hone o
  have hlist : (outputsOf response).flatMap (fun o => if o.type.isTool then
      [(.item { item := some o } : ToolEvent Usage)] else []) =
      ((outputsOf response).filter fun o => o.type.isTool).map fun o =>
        (.item { item := some o } : ToolEvent Usage) := by
    induction outputsOf response with
    | nil => rfl
    | cons o outputs ih =>
      rw [flatMap_cons, ih, filter_cons]
      split_ifs <;> rfl
  rw [hlist] at hall
  exact hall

variable {event : ResponsesStreamResponse Usage} {events : List (ResponsesStreamResponse Usage)}
  {s : ResponsesToChatStreamState Usage}

variable (response : Option (OpenAIResponsesResponse Usage))

theorem calls_finalize (hs : s.finalized = false) : (finalize response s).1.flatMap toolCalls =
      (flushAllPendingTools s.book).1 := by
  have hend : Calls (write fun s => makeChunk s {} (some (finishReasonOf response s)) ::
      usageChunks s : ChatProgram Usage) skip := by
    intro s
    refine ⟨?_, rfl⟩
    have husage : (usageChunks s).flatMap toolCalls = [] := by
      unfold usageChunks
      split <;> rfl
    show flatMap _ (makeChunk s {} (some (finishReasonOf response s)) :: usageChunks s) = []
    rw [flatMap_cons, husage]
    rfl
  have hall : Calls (andThen (sendTools flushAllPendingTools) (andThen ensureStart
      (write fun s => makeChunk s {} (some (finishReasonOf response s)) :: usageChunks s)) : ChatProgram Usage) _ :=
    (calls_sendTools flushAllPendingTools).andThen (calls_ensureStart.andThen hend)
  unfold finalize
  rw [if_neg (by simp [hs])]
  have hcalls := (hall { s with finalized := true }).1
  rw [hcalls]
  exact append_nil _

variable (usageFrom : Usage → Usage)

/-- **Simulation**: before the terminal event the converter does to the book what the tool events do. -/
theorem calls_chatStep (hevent : event.type.isTerminal = false) :
    Calls (chatStep usageFrom event) (each ToolEvent.program (toolEvents event)) := by
  unfold chatStep responsesStreamEventToChatChunks toolEvents
  cases htype : event.type with
  | completed | done | incomplete =>
    rw [htype] at hevent
    cases hevent
  | created =>
    have hmetadata : Calls (update (applyResponseMetadata usageFrom event.response) : ChatProgram Usage) skip := by
      refine hidden fun s => ?_
      cases event.response <;> rfl
    exact hmetadata.andThen calls_ensureStart
  | reasoningSummaryDelta | reasoningTextDelta => exact calls_reasoningDelta event.delta
  | reasoningSummaryDone | reasoningTextDone => exact hidden fun _ => rfl
  | outputTextDelta => exact calls_textDelta event.delta
  | outputItemAdded | outputItemDone =>
    show Calls (itemEvent event) _
    unfold itemEvent
    cases event.item with
    | none => exact skip
    | some item =>
      by_cases h : item.type.isTool = true
      · simp only [h, if_true]
        exact calls_single (.item event)
      · simp only [h]
        exact skip
  | functionArgsDelta | customToolInputDelta => exact calls_single (.argsDelta event)
  | functionArgsDone | customToolInputDone => exact calls_single (.argsDone event)
  | failed | error | outputTextDone | other => exact skip

/-! ### Whole streams -/

/-- The chunks of a stream that ends with `finalizeResponsesToChatStream`. -/
def finishedStream (events : List (ResponsesStreamResponse Usage)) :
    ChatProgram Usage := andThen (chatStream usageFrom events) finalizeResponsesToChatStream

theorem finalize_finalized (s : ResponsesToChatStreamState Usage) : (finalize response s).2.finalized = true := by
  have h := congrArg TextState.finalized (speaks_finalize response s).2
  unfold sayFinish at h
  split_ifs at h with hs
  · exact h.trans hs
  · exact h

theorem finalized_chatStep (hevent : event.type.isTerminal = false) (s : ResponsesToChatStreamState Usage) :
    (chatStep usageFrom event s).2.finalized = s.finalized := by
  have h := congrArg TextState.finalized (speaks_chatStep usageFrom event s).2
  unfold textStep at h
  cases htype : event.type
  case completed | done | incomplete =>
    rw [htype] at hevent
    cases hevent
  all_goals
    simp only [htype] at h
    try unfold sayReasoning at h
    try unfold sayText at h
    try split_ifs at h
    all_goals exact h

theorem finalized_chatStream (hevents : ∀ e ∈ events, e.type.isTerminal = false)
    (s : ResponsesToChatStreamState Usage) : (chatStream usageFrom events s).2.finalized = s.finalized := by
  induction events generalizing s with
  | nil => rfl
  | cons event events ih =>
    have htail := ih (fun e he => hevents e (mem_cons_of_mem event he)) (chatStep usageFrom event s).2
    rw [finalized_chatStep usageFrom (hevents event mem_cons_self)] at htail
    exact htail

theorem calls_chatStream (hevents : ∀ e ∈ events, e.type.isTerminal = false) :
    Calls (chatStream usageFrom events) (each ToolEvent.program (events.flatMap toolEvents)) :=
  each fun e he => calls_chatStep usageFrom (hevents e he)

theorem chatStep_terminal (hevent : event.type.isTerminal = true) :
    ∃ response, chatStep usageFrom event = terminal usageFrom response ∧
      toolEvents event = ((outputsOf response).filter fun o => o.type.isTool).map fun o =>
        (.item { item := some o } : ToolEvent Usage) := by
  unfold chatStep responsesStreamEventToChatChunks toolEvents
  cases htype : event.type
  case completed | done => exact ⟨event.response, rfl, rfl⟩
  case incomplete =>
    refine ⟨some (ensureIncompleteResponse event.response), rfl, ?_⟩
    rw [outputsOf_ensureIncompleteResponse]
  all_goals
    rw [htype] at hevent
    cases hevent

theorem finalized_replay (o : ResponsesOutput) (s : TextState) : (replay o s).2.finalized = s.finalized := by
  unfold replay sayText sayReasoning
  cases o.type <;> simp only <;> split_ifs <;> rfl

theorem finalized_terminalOutputChunks (s : ResponsesToChatStreamState Usage) :
    (terminalOutputChunks response s).2.finalized = s.finalized := by
  unfold terminalOutputChunks
  induction outputsOf response generalizing s with
  | nil => rfl
  | cons o outputs ih =>
    rw [each_cons, ih]
    have h := congrArg TextState.finalized (speaks_terminalOutput o s).2
    rw [finalized_replay] at h
    exact h

theorem calls_terminal (hevent : event.type.isTerminal = true) (hs : s.finalized = false) :
    (chatStep usageFrom event s).1.flatMap toolCalls =
      (andThen (each ToolEvent.program (toolEvents event)) flushAllPendingTools s.book).1 ∧
      (chatStep usageFrom event s).2.finalized = true := by
  obtain ⟨response, hstep, hevents⟩ := chatStep_terminal usageFrom hevent
  rw [hstep, hevents]
  refine ⟨?_, finalize_finalized response _⟩
  have hmetadata : (applyResponseMetadata usageFrom response s).book = s.book ∧
      (applyResponseMetadata usageFrom response s).finalized = s.finalized := by
    cases response <;> exact ⟨rfl, rfl⟩
  obtain ⟨hfragments, hbook⟩ := calls_terminalOutputChunks response (applyResponseMetadata usageFrom response s)
  have hopen := finalized_terminalOutputChunks response (applyResponseMetadata usageFrom response s)
  rw [hmetadata.2, hs] at hopen
  have hend := calls_finalize response hopen
  unfold terminal
  rw [hmetadata.1] at hfragments hbook
  rw [andThen_apply, andThen_apply, andThen_apply, update_apply, nil_append, flatMap_append, hfragments, hend, hbook]

theorem calls_finishedStream (hlast : events.Pairwise fun e _ => e.type.isTerminal = false) (hs : s.finalized = false) :
    (finishedStream usageFrom events s).1.flatMap toolCalls =
      (andThen (each ToolEvent.program (events.flatMap toolEvents)) flushAllPendingTools s.book).1 := by
  unfold finishedStream finalizeResponsesToChatStream
  rw [andThen_apply, andThen_apply, flatMap_append]
  by_cases hopen : ∀ e ∈ events, e.type.isTerminal = false
  · -- The stream breaks off without a terminal event.
    obtain ⟨hfragments, hbook⟩ := calls_chatStream usageFrom hopen s
    have hend := calls_finalize none ((finalized_chatStream usageFrom hopen s).trans hs)
    rw [hfragments, hend, hbook]
  · obtain ⟨init, e, rfl⟩ : ∃ init e, events = init ++ [e] := by
      refine (eq_nil_or_concat' events).resolve_left ?_
      rintro rfl
      simp at hopen
    have hinit : ∀ e' ∈ init, e'.type.isTerminal = false :=
      fun e' he' => (pairwise_append.mp hlast).2.2 e' he' e (by simp)
    have he : e.type.isTerminal = true := by
      by_contra hne
      refine hopen fun e' he' => ?_
      rcases mem_append.mp he' with h | h
      · exact hinit e' h
      · rw [mem_singleton.mp h]
        simpa using hne
    obtain ⟨hfragments, hbook⟩ := calls_chatStream usageFrom hinit s
    obtain ⟨hterminal, hfinalized⟩ := calls_terminal usageFrom he ((finalized_chatStream usageFrom hinit s).trans hs)
    have hstream : chatStream usageFrom (init ++ [e]) s =
        ((chatStream usageFrom init s).1 ++ (chatStep usageFrom e (chatStream usageFrom init s).2).1,
          (chatStep usageFrom e (chatStream usageFrom init s).2).2) := by
      unfold chatStream
      rw [each_append, each_cons, each_nil, append_nil]
    have hdone : (finalize none (chatStep usageFrom e (chatStream usageFrom init s).2).2).1 = [] := by
      unfold finalize
      rw [if_pos hfinalized]
    rw [hstream, hdone, flatMap_append, hfragments, hterminal, flatMap_nil, append_nil,
      flatMap_append, flatMap_singleton, each_append, andThen_apply, hbook, append_assoc]

end simulation

/-! ### Calls and their streams -/

section calls

variable {Usage ι : Type} [DecidableEq ι]

variable (call : ToolEvent Usage → ι)

/-- The arguments of a call: its deltas or, without any, what its items come with. -/
def callArguments (ts : List (ToolEvent Usage)) (x : ι) : String :=
  if deltas call x ts ≠ "" then deltas call x ts
  else ((ts.filter fun t => call t = x ∧ t.arguments ≠ "").map ToolEvent.arguments).headD ""

/-- Each call keeps one output index and one item id, by which every event names it, and its items come
with its arguments or with none.  Nothing follows a terminal event. -/
structure CallStream (index : ι → ℤ) (id : ι → String) (call : ToolEvent Usage → ι)
    (events : List (ResponsesStreamResponse Usage)) : Prop where
  last : events.Pairwise fun e _ => e.type.isTerminal = false
  indexInj : Function.Injective index
  idInj : Function.Injective id
  outputIndex : ∀ t ∈ events.flatMap toolEvents, ∀ n ∈ t.event.outputIndex, n = index (call t)
  itemID : ∀ t ∈ events.flatMap toolEvents,
    ∀ y ∈ [responseStreamEventItemID t.event, nonBlank t.event.itemID].flatMap Option.toList,
      y = id (call t)
  named : ∀ t ∈ events.flatMap toolEvents, t.names ≠ []
  arguments : ∀ t ∈ events.flatMap toolEvents,
    t.arguments = "" ∨ t.arguments = callArguments call (events.flatMap toolEvents) (call t)

structure Fitting (events : List (ResponsesStreamResponse Usage)) : Prop where
  callIDs : ∀ t ∈ events.flatMap toolEvents, ∀ t' ∈ events.flatMap toolEvents,
    t.callID ≠ none → t.callID = t'.callID → call t = call t'
  fits : StepSys.Along (fun pre t => pre ++ [t]) (Fits call) [] (events.flatMap toolEvents)

/-- The fragments hold every call once, under the index that is its place in `order`: the indices come
in their order, and under each the arguments of its call and its name, if it is known, once. -/
structure CallsPreserved (ts : List (ToolEvent Usage))
    (fs : List ToolCallResponse) (order : List ι) : Prop where
  nodup : order.Nodup
  calls : ∀ x, x ∈ order ↔ ∃ t ∈ ts, call t = x ∧ (t.opens = true ∨ t.delta ≠ "")
  numbered : created 0 fs = some order.length
  arguments : ∀ j x, order[j]? = some x → argumentsAt j fs = callArguments call ts x
  names : ∀ j x, order[j]? = some x → namesAt j fs = (firstName call x ts).toList

/-! ### What the calls are -/

variable {call : ToolEvent Usage → ι} {ts : List (ToolEvent Usage)} {x : ι}

theorem deltas_ne_empty_iff : deltas call x ts ≠ "" ↔ ∃ t ∈ ts, call t = x ∧ t.delta ≠ "" := by
  induction ts using reverseRecOn with
  | nil => simp [deltas]
  | append_singleton ts t ih =>
    rw [deltas_concat]
    by_cases hx : call t = x
    · by_cases hdelta : t.delta = ""
      · rw [if_pos hx, hdelta, String.append_empty, ih]
        simp [or_and_right, exists_or, hdelta]
      · simp [hx, hdelta]
    · rw [if_neg hx, String.append_empty, ih]
      simp [or_and_right, exists_or, hx]

theorem known_ne_nil_iff (hnamed : ∀ t ∈ ts, t.names ≠ []) :
    known call x ts ≠ [] ↔ ∃ t ∈ ts, call t = x ∧ t.opens = true := by
  induction ts using reverseRecOn with
  | nil => simp [known]
  | append_singleton ts t ih =>
    have ih' := ih fun t ht => hnamed t (mem_append_left _ ht)
    have hsplit : (∃ t' ∈ ts ++ [t], call t' = x ∧ t'.opens = true) ↔
        (∃ t' ∈ ts, call t' = x ∧ t'.opens = true) ∨ (call t = x ∧ t.opens = true) := by
      simp [or_and_right, exists_or]
    rw [known_concat, hsplit, ← ih']
    by_cases hx : call t = x
    · have hname := hnamed t (by simp)
      unfold learn
      rw [if_pos hx]
      cases t with
      | item event => simp [hx, ToolEvent.opens, hname]
      | argsDone event =>
        by_cases hempty : known call x ts = [] <;> simp [hx, ToolEvent.opens, hname, hempty]
      | argsDelta event => simp [ToolEvent.opens]
    · rw [learn_other hx]
      simp [hx]

theorem deltas_append (pre post : List (ToolEvent Usage)) :
    deltas call x (pre ++ post) = deltas call x pre ++ deltas call x post := by
  simp [deltas, String.join_append]

variable {pre post : List (ToolEvent Usage)}

theorem callArguments_begins (h : ts = pre ++ post) : ∃ r, callArguments call ts x = deltas call x pre ++ r := by
  unfold callArguments
  by_cases hdeltas : deltas call x ts = ""
  · have hpre : deltas call x pre = "" := by
      rw [h, deltas_append] at hdeltas
      exact (String.append_eq_empty_iff.mp hdeltas).1
    rw [if_neg (by simpa using hdeltas), hpre]
    exact ⟨_, String.empty_append.symm⟩
  · rw [if_pos hdeltas, h, deltas_append]
    exact ⟨_, rfl⟩

theorem told_all : told call (callArguments call ts) x ts = callArguments call ts x := by
  unfold told
  by_cases hitem : Itemized call x ts
  · rw [if_pos hitem]
  · rw [if_neg hitem]
    unfold callArguments
    by_cases hdeltas : deltas call x ts = ""
    · have hnone : ts.filter (fun t => call t = x ∧ t.arguments ≠ "") = [] := by
        refine filter_eq_nil_iff.mpr fun t ht hcond => ?_
        exact hitem ⟨t, ht, by simpa using hcond⟩
      rw [if_neg (by simpa using hdeltas), hnone, hdeltas]
      rfl
    · rw [if_pos hdeltas]

/-! ### Owners of names -/

def owns (index : ι → ℤ) (id : ι → String) (call : ToolEvent Usage → ι) (ts : List (ToolEvent Usage)) :
    ToolKey → ι → Prop
  | .output n, x => n = index x
  | .item y, x => y = id x
  | .call c, x => ∃ t ∈ ts, call t = x ∧ t.callID = some c

variable {index : ι → ℤ} {id : ι → String} {events : List (ResponsesStreamResponse Usage)}

omit [DecidableEq ι] in
theorem owns_functional (hindex : Function.Injective index) (hid : Function.Injective id)
    (hcall : ∀ t ∈ ts, ∀ t' ∈ ts, t.callID ≠ none → t.callID = t'.callID → call t = call t')
    (k : ToolKey) (x y : ι) (hx : owns index id call ts k x) (hy : owns index id call ts k y) : x = y := by
  cases k with
  | output n => exact hindex (hx.symm.trans hy)
  | item z => exact hid (hx.symm.trans hy)
  | call c =>
    obtain ⟨t, ht, rfl, hc⟩ := hx
    obtain ⟨t', ht', rfl, hc'⟩ := hy
    exact hcall t ht t' ht' (by simp [hc]) (hc.trans hc'.symm)

theorem lawful_of_callStream (h : CallStream index id call events)
    {t : ToolEvent Usage} (hsplit : events.flatMap toolEvents = pre ++ t :: post) :
    Lawful call (owns index id call (events.flatMap toolEvents))
      (callArguments call (events.flatMap toolEvents)) pre t := by
  have ht : t ∈ events.flatMap toolEvents := by
    rw [hsplit]
    simp
  refine ⟨fun k hk => ?_, h.named t ht, fun event hevent => ?_, ?_, ?_, fun t' ht' => ?_⟩
  · have hindex := h.outputIndex t ht
    have hid := h.itemID t ht
    simp only [flatMap_cons, flatMap_nil, append_nil, mem_append, Option.mem_toList] at hid
    unfold eventNames at hk
    simp only [mem_append, Option.mem_toList, Option.map_eq_some_iff] at hk
    rcases hk with ((⟨n, hn, rfl⟩ | ⟨y, hy, rfl⟩) | ⟨y, hy, rfl⟩) | ⟨c, hc, rfl⟩
    · exact hindex n hn
    · exact hid y (.inl hy)
    · exact hid y (.inr hy)
    · exact ⟨t, ht, rfl, hc⟩
  · subst hevent
    obtain ⟨e, -, he⟩ := mem_flatMap.mp ht
    unfold toolEvents at he
    split at he
    · cases hitem : e.item with
      | none => simp [hitem] at he
      | some item =>
        simp only [hitem] at he
        split_ifs at he
        · rw [mem_singleton, ToolEvent.item.injEq] at he
          rw [he, hitem]
          simp
        · cases he
    · cases hitem : e.item with
      | none => simp [hitem] at he
      | some item =>
        simp only [hitem] at he
        split_ifs at he
        · rw [mem_singleton, ToolEvent.item.injEq] at he
          rw [he, hitem]
          simp
        · cases he
    all_goals simp at he
    all_goals
      obtain ⟨o, -, rfl⟩ := he
      simp
  · intro hne
    exact (h.arguments t ht).resolve_left hne
  · exact callArguments_begins hsplit
  · refine h.named t' ?_
    rw [hsplit]
    exact mem_append_left _ ht'

/-! ### The run -/

theorem inStep_start (own : ToolKey → ι → Prop) (given : ι → String) : InStep call own given [] [] [] {} := by
  have hleads : ∀ k, ToolBook.leads {} k = none := fun k => by cases k <;> rfl
  have hpending : ∀ k, ToolBook.pending {} k = none := fun k => by cases k <;> rfl
  refine ⟨⟨⟨nodup_nil, rfl, ?_, ?_, ?_⟩, rfl, ?_, ?_, ?_, ?_⟩, ?_, ?_⟩
  · intro k j hk
    cases hk
  · intro k k' hk
    rw [hleads] at hk
    cases hk
  · intro n k' hk
    rw [hleads] at hk
    cases hk
  · intro j x hj
    cases hj
  · exact fun x _ => ⟨rfl, rfl⟩
  · intro k s hk
    rw [hpending] at hk
    cases hk
  · exact fun x _ hdeltas => absurd rfl hdeltas
  · intro x
    simp [known]
  · intro x k hk
    cases hk

theorem toolEvents_calls (h : CallStream index id call events) (hfitting : Fitting call events) :
    ∃ order, CallsPreserved call (events.flatMap toolEvents)
      (andThen (each ToolEvent.program (events.flatMap toolEvents)) flushAllPendingTools {}).1 order := by
  set ts := events.flatMap toolEvents with hts
  have hfunctional := @owns_functional Usage ι call ts index id h.indexInj h.idInj hfitting.callIDs
  have hitemID : ∀ y y' x, owns index id call ts (.item y) x → owns index id call ts (.item y') x →
      y = y' := fun y y' x hy hy' => hy.trans hy'.symm
  have halong := StepSys.along_trace hfitting.fits fun pre t post hsplit =>
    lawful_of_callStream h hsplit
  have hrun := each_trace (I := fun pre fs b => ∃ order,
      InStep call (owns index id call ts) (callArguments call ts) pre fs order b) (fun pre fs b t hI hP => by
      obtain ⟨order, hin⟩ := hI
      exact inStep_step hfunctional hitemID hin hP.1 hP.2)
    ⟨[], inStep_start _ _⟩ halong
  obtain ⟨order, hin⟩ := hrun
  rw [nil_append, nil_append] at hin
  obtain ⟨order', htelling, hnew, hold, hkept⟩ := telling_flush hfunctional
    (fun x => waiting_ne_nil h.named) hin.telling
  refine ⟨order', htelling.maps.nodup, fun x => ?_, ?_, fun j x hj => ?_, fun j x hj => ?_⟩
  · have hknown := (hin.known x).trans (known_ne_nil_iff h.named)
    have hdeltas := @deltas_ne_empty_iff Usage ι _ call ts x
    constructor
    · intro hx
      rcases hnew x hx with hx | hx
      · obtain ⟨t, ht, rfl, hopens⟩ := hknown.mp hx
        exact ⟨t, ht, rfl, .inl hopens⟩
      · obtain ⟨t, ht, rfl, hdelta⟩ := hdeltas.mp hx
        exact ⟨t, ht, rfl, .inr hdelta⟩
    · rintro ⟨t, ht, rfl, hopens | hdelta⟩
      · exact hold _ (hknown.mpr ⟨t, ht, rfl, hopens⟩)
      · exact hkept _ (hdeltas.mpr ⟨t, ht, rfl, hdelta⟩)
  · exact htelling.created
  · exact (htelling.told j x hj).argumentsAt.trans told_all
  · exact (htelling.told j x hj).namesAt

/-- **Tool calls**: a stream whose events fit is converted to chunks that hold each call once. -/
theorem chatStream_calls (usageFrom : Usage → Usage) (model : String) (createdAt : ℤ)
    (includeUsage : Bool) (usage : Usage) (index : ι → ℤ) (id : ι → String)
    (call : ToolEvent Usage → ι) (events : List (ResponsesStreamResponse Usage))
    (h : CallStream index id call events) (hfitting : Fitting call events) :
    ∃ order, CallsPreserved call (events.flatMap toolEvents) ((finishedStream usageFrom events
        (newResponsesToChatStreamState model createdAt includeUsage usage)).1.flatMap
        ChatCompletionsStreamResponse.toolCalls) order := by
  rw [calls_finishedStream usageFrom h.last rfl]
  exact toolEvents_calls h hfitting

/-! ### Two streams -/

def sideBySide : List (ResponsesStreamResponse Unit) :=
  [{ type := .functionArgsDelta, outputIndex := some 1, itemID := "y", delta := "a" },
    { type := .outputItemAdded, outputIndex := some 1,
      item := some { type := .functionCall, id := "y", callId := "d", name := "g" } },
    { type := .outputItemAdded, outputIndex := some 0,
      item := some { type := .functionCall, id := "x", callId := "c", name := "f" } },
    { type := .functionArgsDelta, outputIndex := some 0, delta := "b" },
    { type := .functionArgsDelta, itemID := "y", delta := "e" },
    { type := .functionArgsDone, outputIndex := some 1, itemID := "y" },
    { type := .outputItemDone, outputIndex := some 0,
      item := some { type := .functionCall, id := "x", name := "f", arguments := .string "b" } },
    { type := .completed, response := some { output :=
      [{ type := .functionCall, id := "x", callId := "c", name := "f", arguments := .string "b" },
        { type := .functionCall, id := "y", callId := "d", name := "g", arguments := .string "ae" }] } }]

def isSecond (t : ToolEvent Unit) : Bool :=
  t.names.contains (.output 1) || t.names.contains (.item "y")

theorem sideBySide_calls : ∃ order, CallsPreserved isSecond (sideBySide.flatMap toolEvents)
    ((finishedStream (fun u => u) sideBySide (newResponsesToChatStreamState "m" 0 true ())).1.flatMap
      ChatCompletionsStreamResponse.toolCalls) order :=
  chatStream_calls (fun u => u) "m" 0 true () (fun second => if second then 1 else 0)
    (fun second => if second then "y" else "x") isSecond sideBySide
    ⟨by decide, by unfold Function.Injective; decide, by unfold Function.Injective; decide, by decide,
      by decide, by decide, by decide⟩ ⟨by decide, by decide⟩

def listedOnly : List (ResponsesStreamResponse Unit) :=
  [{ type := .functionArgsDelta, outputIndex := some 0, itemID := "x", delta := "ab" },
    { type := .completed, response := some { output :=
      [{ type := .functionCall, id := "x", callId := "c", name := "f", arguments := .string "ab" }] } }]

def mixedNames : List (ResponsesStreamResponse Unit) :=
  [{ type := .functionArgsDelta, itemID := "x", delta := "a" },
    { type := .functionArgsDelta, outputIndex := some 0, itemID := "x", delta := "b" },
    { type := .outputItemAdded, outputIndex := some 0,
      item := some { type := .functionCall, id := "x", callId := "c", name := "f" } },
    { type := .completed }]

/-- A listed item is taken for another call than the deltas kept at its output index, and its arguments are told
twice.  Deltas kept under two names are put together in the order of the names. -/
theorem kept_deltas_misplaced : (CallStream (fun _ : Unit => 0) (fun _ => "x") (fun _ => ()) listedOnly ∧
      ¬ ∃ order, CallsPreserved (fun _ => ()) (listedOnly.flatMap toolEvents)
        ((finishedStream (fun u => u) listedOnly (newResponsesToChatStreamState "m" 0 true ())).1.flatMap
          ChatCompletionsStreamResponse.toolCalls) order) ∧
    (CallStream (fun _ : Unit => 0) (fun _ => "x") (fun _ => ()) mixedNames ∧
      ¬ ∃ order, CallsPreserved (fun _ => ()) (mixedNames.flatMap toolEvents)
        ((finishedStream (fun u => u) mixedNames (newResponsesToChatStreamState "m" 0 true ())).1.flatMap
          ChatCompletionsStreamResponse.toolCalls) order) := by
  refine ⟨⟨⟨by decide, fun _ _ _ => rfl, fun _ _ _ => rfl, by decide, by decide, by decide, by decide⟩,
    ?_⟩, ⟨by decide, fun _ _ _ => rfl, fun _ _ _ => rfl, by decide, by decide, by decide, by decide⟩, ?_⟩
  · rintro ⟨order, h⟩
    have htwo : order.length = 2 := by
      have hnumbered := h.numbered
      rw [show created 0 _ = some 2 by decide] at hnumbered
      exact (Option.some.inj hnumbered).symm
    obtain ⟨x, y, rfl⟩ := length_eq_two.mp htwo
    exact absurd h.nodup (by simp)
  · rintro ⟨order, h⟩
    have hone : order.length = 1 := by
      have hnumbered := h.numbered
      rw [show created 0 _ = some 1 by decide] at hnumbered
      exact (Option.some.inj hnumbered).symm
    obtain ⟨x, rfl⟩ := length_eq_one_iff.mp hone
    exact absurd (h.arguments 0 () rfl) (by decide)

end calls

end WynthApi.Relay
