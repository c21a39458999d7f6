import WynthApi.Relay.CallTrack

/-!
# Every event keeps track of the calls

`InStep` puts together what `Telling` says of the fragments and the book with the events seen so far.
Every event keeps it (`inStep_step`) as long as it fits the ones before (`Fits`), and the flush at the end
of the stream leaves nothing waiting (`telling_flush`).
-/

namespace WynthApi.Relay

open ToolBook List AList Function

variable {k key : ToolKey}

section steps

variable {Usage ι : Type} [DecidableEq ι] (call : ToolEvent Usage → ι) (own : ToolKey → ι → Prop)
  (given : ι → String)

/-- What must have been told of the arguments of a call: all of them once an item came with them, else
its deltas. -/
def told (x : ι) (pre : List (ToolEvent Usage)) : String :=
  if Itemized call x pre then given x else deltas call x pre

structure InStep (pre : List (ToolEvent Usage)) (fs : List ToolCallResponse) (order : List ι)
    (b : ToolBook) : Prop where
  telling : Telling own (told call given · pre) (firstName call · pre) (deltas call · pre)
    (waiting call · pre) fs order b
  known : ∀ x, x ∈ order ↔ known call x pre ≠ []
  registered : ∀ x, ∀ k ∈ Relay.known call x pre, b.leads k ≠ none

/-- The names of an event belong to its call, and the arguments of an item are those of the call, which
begin with the deltas. -/
structure Lawful (pre : List (ToolEvent Usage)) (t : ToolEvent Usage) : Prop where
  owned : ∀ k ∈ eventNames t.event, own k (call t)
  named : t.names ≠ []
  item : ∀ event, t = .item event → event.item ≠ none
  arguments : t.arguments ≠ "" → t.arguments = given (call t)
  begins : ∃ r, given (call t) = deltas call (call t) pre ++ r
  before : ∀ t' ∈ pre, t'.names ≠ []

variable {call own given} {pre : List (ToolEvent Usage)} {fs : List ToolCallResponse} {order : List ι}
  {b : ToolBook} {t : ToolEvent Usage}

theorem told_concat (x : ι) (pre : List (ToolEvent Usage)) (t : ToolEvent Usage) :
    told call given x (pre ++ [t]) = if Itemized call x pre ∨ (call t = x ∧ t.arguments ≠ "") then given x
      else deltas call x pre ++ if call t = x then t.delta else "" := by
  unfold told
  rw [deltas_concat]
  by_cases h : Itemized call x pre ∨ (call t = x ∧ t.arguments ≠ "")
  · rw [if_pos h, if_pos (itemized_concat.mpr h)]
  · rw [if_neg h, if_neg fun hi => h (itemized_concat.mp hi)]

theorem other_concat {y : ι} (h : y ≠ call t) : told call given y (pre ++ [t]) = told call given y pre ∧
      firstName call y (pre ++ [t]) = firstName call y pre ∧ deltas call y (pre ++ [t]) = deltas call y pre ∧
      waiting call y (pre ++ [t]) = waiting call y pre := by
  have hne : call t ≠ y := h.symm
  rw [told_concat, firstName_concat, deltas_concat, waiting_concat]
  simp [hne, told]

theorem known_other {y : ι} (h : y ≠ call t) : known call y (pre ++ [t]) = known call y pre :=
  (known_concat t).trans (learn_other h.symm)

theorem silent_concat (x : ι) (hargs : t.arguments = "") (hdelta : t.delta = "") (hname : t.name = none) :
    told call given x (pre ++ [t]) = told call given x pre ∧ firstName call x (pre ++ [t]) = firstName call x pre ∧
      deltas call x (pre ++ [t]) = deltas call x pre ∧ waiting call x (pre ++ [t]) = waiting call x pre := by
  rw [told_concat, firstName_concat, deltas_concat, waiting_concat]
  simp [hargs, hdelta, hname, told]

theorem InStep.idle (h : InStep call own given pre fs order b) (hargs : t.arguments = "")
    (hdelta : t.delta = "") (hname : t.name = none)
    (hknown : ∀ x, Relay.known call x (pre ++ [t]) = Relay.known call x pre) :
    InStep call own given (pre ++ [t]) fs order b := by
  refine ⟨?_, fun x => by rw [hknown]; exact h.known x, fun x => by rw [hknown]; exact h.registered x⟩
  have hsame := fun x => @silent_concat _ _ _ call given pre t x hargs hdelta hname
  have htold : (told call given · (pre ++ [t])) = (told call given · pre) := funext fun x => (hsame x).1
  have hfirst : (firstName call · (pre ++ [t])) = (firstName call · pre) := funext fun x => (hsame x).2.1
  have hdeltas : (deltas call · (pre ++ [t])) = (deltas call · pre) := funext fun x => (hsame x).2.2.1
  have hwaiting : (waiting call · (pre ++ [t])) = (waiting call · pre) := funext fun x => (hsame x).2.2.2
  rw [htold, hfirst, hdeltas, hwaiting]
  exact h.telling

variable (hfunctional : ∀ k x y, own k x → own k y → x = y)
include hfunctional

variable {p : ℕ} {item : ResponsesOutput} {event : ResponsesStreamResponse Usage}

variable {order' : List ι} {a : String}

variable (h : InStep call own given pre fs order b)

include h in
/-- **Touch rule** for events: the tool of the event's call tells what it owes. -/
theorem InStep.touch {b' : ToolBook} {names : List ToolKey} (hopened : Opened own names order' (call t) p b b')
    (hgrow : order' = order ∨ order' = order ++ [call t] ∧ (b'.tools p).sent = false)
    (hself : Relay.known call (call t) (pre ++ [t]) ≠ [])
    (hnames : ∀ k ∈ Relay.known call (call t) (pre ++ [t]), b'.leads k ≠ none) {r explicit : String}
    {before : Option String} (howes : Owes a r before (firstName call (call t) (pre ++ [t])) fs p (b'.tools p))
    (hargs : told call given (call t) (pre ++ [t]) = a ++ r) (hexplicit : explicit = "" ∨ explicit = r) :
    InStep call own given (pre ++ [t]) (fs ++ (toolDelta p explicit b').1) order' (toolDelta p explicit b').2 := by
  have htelling := h.telling.touch hfunctional (fun _ => other_concat) hopened hgrow howes hargs hexplicit
  refine ⟨htelling, fun y => ?_, fun y k hk => ?_⟩
  · by_cases hy : y = call t
    · subst hy
      exact ⟨fun _ => hself, fun _ => mem_of_getElem? hopened.place⟩
    · rw [known_other hy, ← h.known y]
      rcases hgrow with rfl | ⟨rfl, -⟩
      · exact Iff.rfl
      · simp [hy]
  · rw [(toolDelta_maps p explicit b').2.2.1]
    by_cases hy : y = call t
    · subst hy
      exact hnames k hk
    · rw [known_other hy] at hk
      exact hopened.leads k (h.registered y k hk)

include h in
omit hfunctional in
theorem InStep.linked (hfits : Fits call pre t) (hbears : t.opens = true ∨ t.delta ≠ "") (hx : call t ∈ order) :
    ∃ k ∈ t.names, b.leads k ≠ none := by
  obtain ⟨k, hk, hkn⟩ := hfits.named hbears ((h.known _).mp hx)
  exact ⟨k, hk, h.registered _ k hkn⟩

variable {x : ι}

include h in
omit hfunctional in
theorem InStep.known_nil (hx : x ∉ order) : Relay.known call x pre = [] := by
  by_contra hne
  exact hx ((h.known x).mpr hne)

variable {k₀ : ToolKey}

include h in
theorem InStep.kept_waiting (hbefore : ∀ t' ∈ pre, t'.names ≠ []) (hkeep : ∀ k ∈ waiting call x pre, k = k₀)
    {s : String} (hk : own k x) (hs : b.pending k = some s) : k = k₀ ∧ s = deltas call x pre := by
  obtain ⟨hs0, y, -, hown, hdl, hwt⟩ := h.telling.kept k s hs
  obtain rfl := hfunctional k x y hk hown
  obtain ⟨k', hk'⟩ := exists_mem_of_ne_nil _ (waiting_ne_nil hbefore (hdl ▸ hs0))
  exact ⟨(hwt k' hk').symm.trans (hkeep k' hk'), hdl⟩

include h in
omit hfunctional in
/-- The text of a call without a tool is what is kept under its name. -/
theorem InStep.kept_text (hx : x ∉ order) (hown : own k₀ x)
    (hkept : ∀ {k s}, own k x → b.pending k = some s → k = k₀ ∧ s = deltas call x pre) :
    (b.pending k₀).getD "" = deltas call x pre := by
  cases hpending : b.pending k₀ with
  | some s => exact (hkept hown hpending).2
  | none =>
    by_contra hne
    obtain ⟨k, hk, hpk⟩ := h.telling.waits x hx fun hdl => hne hdl.symm
    rw [(hkept hk hpk).1, hpending] at hpk
    cases hpk

include h in
theorem inStep_delta_known
    (hfits : Fits call pre (.argsDelta event)) (hlawful : Lawful call own given pre (.argsDelta event))
    (hdelta : event.delta ≠ "") (hx : call (.argsDelta event) ∈ order) :
    InStep call own given (pre ++ [.argsDelta event]) (fs ++ (toolArgumentsDelta event b).1) order
      (toolArgumentsDelta event b).2 := by
  obtain ⟨j, hfind, hj⟩ : ∃ j, b.findToolForEvent event = some j ∧ order[j]? = some (call (.argsDelta event)) :=
    find_known hfunctional h.telling.maps hlawful.owned (h.linked hfits (.inr hdelta) hx)
  have hprogram : toolArgumentsDelta event b = toolDelta j event.delta
      (b.modify j fun tool => { tool with arguments := tool.arguments ++ event.delta }) := by
    unfold toolArgumentsDelta
    rw [if_neg hdelta, hfind]
  have hitem := hfits.fresh hdelta
  have hknown : Relay.known call (call (.argsDelta event)) (pre ++ [.argsDelta event]) =
      Relay.known call (call (.argsDelta event)) pre := by
    rw [known_concat]
    exact if_pos rfl
  have htold := h.telling.told j _ hj
  have howes : Owes (told call given (call (.argsDelta event)) pre) event.delta
      (firstName call (call (.argsDelta event)) pre)
      (firstName call (call (.argsDelta event)) (pre ++ [.argsDelta event])) fs j
      ((b.modify j fun tool => { tool with arguments := tool.arguments ++ event.delta }).tools j) := by
    rw [tools_modify_self, firstName_concat]
    refine ⟨htold.index, ?_, htold.sentAt, htold.nameSent, ?_, htold.argumentsAt, htold.namesAt⟩
    · show (b.tools j).arguments ++ event.delta = _
      rw [htold.arguments]
    · rw [← htold.owes.name]
      simp [ToolEvent.name]
  rw [hprogram]
  refine h.touch hfunctional ((h.telling.opened hfunctional hj).modify _) (.inl rfl) ?_ ?_ howes ?_ (.inr rfl)
  · rw [hknown]
    exact (h.known _).mp hx
  · rw [hknown, leads_modify]
    exact h.registered _
  · rw [told_concat, if_neg (by simp [hitem, ToolEvent.arguments]), if_pos rfl]
    unfold told
    rw [if_neg hitem]
    rfl

include h in
theorem inStep_done_known
    (hfits : Fits call pre (.argsDone event)) (hlawful : Lawful call own given pre (.argsDone event))
    (hx : call (.argsDone event) ∈ order) :
    InStep call own given (pre ++ [.argsDone event]) (fs ++ (flushPendingTool event b).1) order
      (flushPendingTool event b).2 := by
  obtain ⟨j, hfind, hj⟩ : ∃ j, b.findToolForEvent event = some j ∧ order[j]? = some (call (.argsDone event)) :=
    find_known hfunctional h.telling.maps hlawful.owned (h.linked hfits (.inl rfl) hx)
  have hprogram : flushPendingTool event b = toolDelta j "" b := by
    unfold flushPendingTool
    rw [hfind]
  have hne := (h.known _).mp hx
  have hknown : Relay.known call (call (.argsDone event)) (pre ++ [.argsDone event]) =
      Relay.known call (call (.argsDone event)) pre := by
    rw [known_concat]
    exact (if_pos rfl).trans (if_neg hne)
  obtain ⟨htold, hfirst, -, -⟩ := @silent_concat _ _ _ call given pre (.argsDone event)
    (call (.argsDone event)) rfl rfl rfl
  have howes := (h.telling.told j _ hj).owes
  rw [hprogram]
  refine h.touch hfunctional (h.telling.opened hfunctional hj) (.inl rfl) ?_ ?_ (by rw [hfirst]; exact howes) ?_ (.inl rfl)
  · rw [hknown]
    exact hne
  · rw [hknown]
    exact h.registered _
  · rw [htold, String.append_empty]

omit hfunctional in
theorem pending_keepDelta (hk₀ : (ToolEvent.argsDelta event).names.head? = some k₀)
    (b : ToolBook) (k : ToolKey) : (b.keepDelta event).pending k =
      if k = k₀ then some ((b.pending k₀).getD "" ++ event.delta) else b.pending k := by
  unfold ToolEvent.names ToolEvent.event ToolEvent.itemID at hk₀
  unfold keepDelta
  cases hindex : event.outputIndex with
  | some n =>
    obtain rfl : ToolKey.output n = k₀ := by simpa [hindex] using hk₀
    cases k with
    | output m =>
      by_cases hm : m = n
      · subst hm
        simp [pending, appendPending]
      · simp [pending, appendPending, hm]
    | item | call => simp [pending]
  | none =>
    cases hid : nonBlank event.itemID with
    | none => simp [hindex, hid] at hk₀
    | some y =>
      obtain rfl : ToolKey.item y = k₀ := by simpa [hindex, hid] using hk₀
      cases k with
      | item z =>
        by_cases hz : z = y
        · subst hz
          simp [pending, appendPending]
        · simp [pending, appendPending, hz]
      | output | call => simp [pending]

omit hfunctional in
theorem keepDelta_same (event : ResponsesStreamResponse Usage) (b : ToolBook) :
    (b.keepDelta event).nextToolIndex = b.nextToolIndex ∧
      (b.keepDelta event).toolByKey = b.toolByKey ∧ (b.keepDelta event).leads = b.leads ∧
      (b.keepDelta event).tools = b.tools := by
  unfold keepDelta
  split
  · exact ⟨rfl, rfl, funext fun k => by cases k <;> rfl, rfl⟩
  · exact ⟨rfl, rfl, funext fun k => by cases k <;> rfl, rfl⟩
  · exact ⟨rfl, rfl, rfl, rfl⟩

include h in
theorem inStep_delta_unknown
    (hfits : Fits call pre (.argsDelta event)) (hlawful : Lawful call own given pre (.argsDelta event))
    (hdelta : event.delta ≠ "") (hx : call (.argsDelta event) ∉ order) :
    InStep call own given (pre ++ [.argsDelta event]) (fs ++ (toolArgumentsDelta event b).1) order
      (toolArgumentsDelta event b).2 := by
  have hfind : b.findToolForEvent event = none := find_unknown hfunctional h.telling.maps hlawful.owned hx
  have hprogram : toolArgumentsDelta event b = ([], b.keepDelta event) := by
    unfold toolArgumentsDelta
    rw [if_neg hdelta, hfind]
  have hsame := keepDelta_same event b
  rw [hprogram, append_nil]
  generalize ht : ToolEvent.argsDelta event = t at *
  have htdelta : t.delta = event.delta := by rw [← ht]; rfl
  have hargs : t.arguments = "" := by rw [← ht]; rfl
  have hname : t.name = none := by rw [← ht]; rfl
  have hknown : ∀ y, Relay.known call y (pre ++ [t]) = Relay.known call y pre := by
    intro y
    rw [known_concat, ← ht]
    unfold learn
    split_ifs <;> rfl
  obtain ⟨k₀, hk₀⟩ : ∃ k₀, t.names.head? = some k₀ := by
    refine Option.ne_none_iff_exists'.mp ?_
    rw [ne_eq, head?_eq_none_iff]
    exact hlawful.named
  have hkeep : ∀ k ∈ waiting call (call t) pre, k = k₀ := by
    intro k hk
    have := hfits.keeping (h.known_nil hx) (by rw [htdelta]; exact hdelta) k hk
    rw [hk₀, Option.some.injEq] at this
    exact this.symm
  have hown₀ : own k₀ (call t) := hlawful.owned k₀ (ToolEvent.names_subset (mem_of_mem_head? hk₀))
  have hkept : ∀ {k s}, own k (call t) → b.pending k = some s → k = k₀ ∧ s = deltas call (call t) pre :=
    h.kept_waiting hfunctional hlawful.before hkeep
  have hpending : ∀ k, (b.keepDelta event).pending k =
      if k = k₀ then some (deltas call (call t) (pre ++ [t])) else b.pending k := by
    intro k
    rw [pending_keepDelta (by rw [ht]; exact hk₀), h.kept_text hx hown₀ hkept, deltas_concat, if_pos rfl, htdelta]
  have hne : deltas call (call t) (pre ++ [t]) ≠ "" := by
    rw [deltas_concat, if_pos rfl, htdelta]
    simp [hdelta]
  have hnames : ∀ k ∈ waiting call (call t) (pre ++ [t]), k = k₀ := by
    intro k hk
    rw [waiting_concat, hk₀] at hk
    rcases mem_append.mp hk with hk | hk
    · exact hkeep k hk
    · split_ifs at hk
      · simpa using hk
      · cases hk
  have huntold : told call given (call t) (pre ++ [t]) = deltas call (call t) (pre ++ [t]) ∧
      firstName call (call t) (pre ++ [t]) = none := by
    have hitem := hfits.fresh (by rw [htdelta]; exact hdelta)
    rw [told_concat, if_neg (by simp [hitem, hargs]), deltas_concat, firstName_concat, (h.telling.untold _ hx).2]
    simp [hname]
  refine ⟨h.telling.wait hfunctional (fun _ => other_concat) hx hsame.1 hsame.2.1 hsame.2.2.1 hsame.2.2.2
    hown₀ hpending hne (fun k s hk hs => (hkept hk hs).1) hnames huntold, fun y => by rw [hknown]; exact h.known y,
    fun y k hk => ?_⟩
  rw [hknown] at hk
  rw [hsame.2.2.1]
  exact h.registered y k hk

/-! ### Items and ends of arguments -/

variable (hitemID : ∀ y y' x, own (.item y) x → own (.item y') x → y = y')

include hitemID in
omit [DecidableEq ι] hfunctional in
theorem names_linkNames (howned : ∀ k ∈ eventNames event, own k x) :
    ∀ k ∈ (ToolEvent.argsDone event).names, k ∈ linkNames event := by
  intro k hk
  rcases mem_append.mp hk with hk | hk
  · exact mem_append_left _ hk
  · obtain ⟨y, hy, rfl⟩ : ∃ y, nonBlank event.itemID = some y ∧ ToolKey.item y = k := by
      simpa [ToolEvent.itemID] using hk
    obtain ⟨y', hy'⟩ : ∃ y', responseStreamEventItemID event = some y' := by
      unfold responseStreamEventItemID
      cases event.item with
      | none => exact ⟨y, hy⟩
      | some item =>
        cases hid : nonBlank item.id with
        | some z => exact ⟨z, by simp [hid]⟩
        | none => exact ⟨y, by simp [hid, hy]⟩
    have hsame := hitemID y y' x (howned (.item y) (by simp [eventNames, hy]))
      (howned (.item y') (by simp [eventNames, hy']))
    simp [linkNames, hy', hsame]

include hitemID in
theorem inStep_done_unknown (h : InStep call own given pre fs order b) (hfits : Fits call pre (.argsDone event))
    (hlawful : Lawful call own given pre (.argsDone event)) (hx : call (.argsDone event) ∉ order) :
    InStep call own given (pre ++ [.argsDone event]) (fs ++ (flushPendingTool event b).1)
      (order ++ [call (.argsDone event)]) (flushPendingTool event b).2 := by
  have hempty := h.known_nil hx
  obtain ⟨key, hkey⟩ : ∃ key, (event.outputIndex.map ToolKey.output).or
      ((nonBlank event.itemID).map .item) = some key := by
    cases hindex : event.outputIndex with
    | some n => exact ⟨_, rfl⟩
    | none =>
      cases hid : nonBlank event.itemID with
      | some y => exact ⟨_, rfl⟩
      | none =>
        have hnone : (ToolEvent.argsDone event).names = [] := by
          simp [ToolEvent.names, ToolEvent.event, ToolEvent.itemID, hindex, hid]
        exact absurd hnone hlawful.named
  have hkeyNames : key ∈ (ToolEvent.argsDone event).names := by
    unfold ToolEvent.names ToolEvent.event ToolEvent.itemID
    rcases Option.or_eq_some_iff.mp hkey with hkey | ⟨-, hkey⟩
    · exact mem_append_left _ (Option.mem_toList.mpr hkey)
    · exact mem_append_right _ (Option.mem_toList.mpr hkey)
  have hownkey := hlawful.owned key (ToolEvent.names_subset hkeyNames)
  have hfree := h.telling.maps.key_none hfunctional hownkey hx
  have hfind : b.findToolForEvent event = none := find_unknown hfunctional h.telling.maps hlawful.owned hx
  have hprogram : flushPendingTool event b = toolDelta order.length ""
      (linkItemID (responseStreamEventItemID event) key order.length
        (linkOutputIndex event.outputIndex key order.length (b.newTool key (fallbackCallID event)).2)) := by
    unfold flushPendingTool ensureFallbackToolForEvent
    rw [hfind, hkey]
    simp only [hfree]
    rw [← h.telling.maps.count]
    rfl
  have hkept : (b.newTool key (fallbackCallID event)).2.Kept := by
    unfold Kept
    rw [pending_newTool]
    exact h.telling.keptText
  have hnames := names_linkNames hitemID hlawful.owned
  obtain ⟨hopened, hargs, hindex, hsent, hnameSent, hsentAt, hname⟩ :=
    h.telling.open_fresh hfunctional hx _ (links_item event hkept) hownkey
      (by simpa using linkNames_nodup event none) (fun k hk => linkNames_owned hlawful.owned hk)
      (fun n hn => by
        have hout := output_mem_linkNames hn
        rw [hout] at hkey
        exact (Option.some.inj hkey).symm)
      (fun k hk => hnames k (hfits.opening hempty rfl k hk))
      (waiting_ne_nil hlawful.before)
  obtain ⟨htold, hfirst, -, -⟩ := @silent_concat _ _ _ call given pre (.argsDone event)
    (call (.argsDone event)) rfl rfl rfl
  obtain ⟨huntold, hnone⟩ := h.telling.untold _ hx
  have hknown : Relay.known call (call (.argsDone event)) (pre ++ [.argsDone event]) =
      (ToolEvent.argsDone event).names := by
    rw [known_concat]
    exact (if_pos rfl).trans (if_pos hempty)
  have howes : Owes "" (deltas call (call (.argsDone event)) pre) none
      (firstName call (call (.argsDone event)) (pre ++ [.argsDone event])) fs order.length _ :=
    h.telling.owes_fresh hindex hargs hsentAt hnameSent (by rw [hfirst, hnone, if_pos hname])
  rw [hprogram]
  refine h.touch hfunctional hopened (.inr ⟨rfl, hsent⟩) ?_ ?_ howes ?_ (.inl rfl)
  · rw [hknown]
    exact hlawful.named
  · rw [hknown]
    exact fun k hk => hopened.names k (hnames k hk)
  · rw [htold, huntold, String.empty_append]

omit [DecidableEq ι] hfunctional in
theorem toolItem_eq {b₁ : ToolBook} (hitem : event.item = some item)
    (hkey : keyForEvent event = some key) (hfound : toolForKey key event item b = (p, b₁)) :
    toolItem event b = toolDelta p "" (((linkCallID item key p (linkItemID (responseStreamEventItemID event) key p
        (linkOutputIndex event.outputIndex key p b₁))).modify p (setName item)).modify p
        fun tool => if item.argumentsString ≠ "" then { tool with arguments := item.argumentsString }
          else tool) := by
  unfold toolItem ensureToolForEvent
  simp only [hitem, hkey, Option.some_or, hfound, Option.map_some, Option.getD_some]

omit [DecidableEq ι] hfunctional in
theorem keyForEvent_isSome (h : (ToolEvent.item event).names ≠ []) : ∃ key, keyForEvent event = some key := by
  rw [← Option.ne_none_iff_exists']
  intro hnone
  apply h
  unfold keyForEvent at hnone
  rw [Option.or_eq_none_iff, Option.or_eq_none_iff] at hnone
  obtain ⟨hindex, hitem, hid⟩ := hnone
  rw [Option.map_eq_none_iff] at hindex hid
  have hitemID : responseStreamEventItemID event = none := by
    unfold responseStreamEventItemID
    cases hi : event.item with
    | none => exact hid
    | some item =>
      rw [hi, Option.bind_some, Option.or_eq_none_iff, Option.map_eq_none_iff] at hitem
      simp [hid, hitem.1]
  simp [ToolEvent.names, ToolEvent.event, ToolEvent.itemID, hindex, hitemID]

omit hfunctional in
theorem told_item (event : ResponsesStreamResponse Usage) (x : ι) (hx : call (.item event) = x) :
    told call given x (pre ++ [.item event]) =
      if (ToolEvent.item event).arguments ≠ "" then given x else told call given x pre := by
  subst hx
  rw [told_concat]
  unfold told
  by_cases hargs : (ToolEvent.item event).arguments = "" <;>
    by_cases hitem : Itemized call (call (.item event)) pre <;> simp [hargs, hitem, ToolEvent.delta]

omit [DecidableEq ι] hfunctional in
theorem name_item {first : Option String} {tool : ResponsesStreamTool}
    (hname : first = none → tool.name = "") : first.or (nonBlank item.name) = first.or
      (if (setName item tool).name = "" then none else some (setName item tool).name) := by
  cases first with
  | some name => rw [Option.some_or, Option.some_or]
  | none =>
    have hempty := hname rfl
    unfold setName nonBlank
    by_cases hblank : GoText.trimSpace item.name = "" <;> simp [hblank, hempty]

include h in
/-- The end of an item event: its name and its arguments are set, and the tool tells what it owes.  Of the
call `a` and `first` have been told before. -/
theorem InStep.stepItem {names : List ToolKey} {b₂ : ToolBook} (hlawful : Lawful call own given pre (.item event))
    (hitem : event.item = some item) (hopened : Opened own names order' (call (.item event)) p b b₂)
    (hnames : ∀ k ∈ (ToolEvent.item event).names, k ∈ names)
    (hgrow : order' = order ∨ order' = order ++ [call (.item event)] ∧ (b₂.tools p).sent = false)
    (howes : Owes a "" (firstName call (call (.item event)) pre)
      (firstName call (call (.item event)) pre) fs p { b₂.tools p with arguments := a })
    (hargs : (b₂.tools p).arguments = told call given (call (.item event)) pre)
    (hbegins : ∃ r, told call given (call (.item event)) pre = a ++ r) :
    let b₃ := (b₂.modify p (setName item)).modify p fun tool =>
      if item.argumentsString ≠ "" then { tool with arguments := item.argumentsString } else tool
    InStep call own given (pre ++ [.item event]) (fs ++ (toolDelta p "" b₃).1) order'
      (toolDelta p "" b₃).2 := by
  intro b₃
  have hopened₃ : Opened own names order' (call (.item event)) p b b₃ := (hopened.modify _).modify _
  have htool : b₃.tools p = if item.argumentsString ≠ ""
      then { setName item (b₂.tools p) with arguments := item.argumentsString }
      else setName item (b₂.tools p) := by
    show (modify p _ _).tools p = _
    rw [tools_modify_self, tools_modify_self]
  have hevent : (ToolEvent.item event).arguments = item.argumentsString := by
    simp [ToolEvent.arguments, hitem]
  have htold := @told_item _ _ _ call given pre event _ rfl
  rw [hevent] at htold
  -- what the tool holds then is what must have been told then
  have hrest : ∃ r, (b₃.tools p).arguments = a ++ r ∧
      told call given (call (.item event)) (pre ++ [.item event]) = a ++ r := by
    obtain ⟨r, hr⟩ := hbegins
    rw [htold, htool]
    by_cases hempty : item.argumentsString = ""
    · refine ⟨r, ?_, ?_⟩
      · rw [if_neg (by simpa using hempty), setName_arguments]
        exact hargs.trans hr
      · rw [if_neg (by simpa using hempty), hr]
    · have hgiven := hlawful.arguments (by rw [hevent]; exact hempty)
      obtain ⟨r', hr'⟩ := hlawful.begins
      have hprefix : ∃ r'', given (call (.item event)) = a ++ r'' := by
        unfold told at hr
        by_cases hitemized : Itemized call (call (.item event)) pre
        · rw [if_pos hitemized] at hr
          exact ⟨r, hr⟩
        · rw [if_neg hitemized] at hr
          exact ⟨r ++ r', by rw [hr', hr, String.append_assoc]⟩
      obtain ⟨r'', hr''⟩ := hprefix
      refine ⟨r'', ?_, ?_⟩
      · rw [if_pos hempty, ← hr'', ← hgiven, hevent]
      · rw [if_pos hempty, hr'']
  obtain ⟨r, harguments, htelling⟩ := hrest
  have hname : firstName call (call (.item event)) pre = none → (b₂.tools p).name = "" := by
    intro hnone
    have := howes.name
    rw [hnone, Option.none_or] at this
    by_contra hne
    rw [if_neg hne] at this
    cases this
  have howes₃ : Owes a r (firstName call (call (.item event)) pre)
      (firstName call (call (.item event)) (pre ++ [.item event])) fs p (b₃.tools p) := by
    have hprogress : (b₃.tools p).index = (b₂.tools p).index ∧ (b₃.tools p).argsSentAt = (b₂.tools p).argsSentAt ∧
        (b₃.tools p).nameSent = (b₂.tools p).nameSent ∧ (b₃.tools p).name = (setName item (b₂.tools p)).name := by
      rw [htool]
      split_ifs <;> simp only [setName_index, setName_argsSentAt, setName_nameSent, and_self]
    obtain ⟨hindex, hsentAt, hnameSent, hsetName⟩ := hprogress
    refine ⟨hindex.trans howes.index, harguments, hsentAt.trans howes.sentAt,
      hnameSent.trans howes.nameSent, ?_, howes.argumentsAt, howes.namesAt⟩
    rw [firstName_concat, if_pos rfl, hsetName, ← name_item hname]
    simp [ToolEvent.name, hitem]
  have hknown : Relay.known call (call (.item event)) (pre ++ [.item event]) =
      Relay.known call (call (.item event)) pre ++ (ToolEvent.item event).names := by
    rw [known_concat]
    exact if_pos rfl
  refine h.touch hfunctional hopened₃ ?_ ?_ (fun k hk => ?_) howes₃ htelling (.inl rfl)
  · rcases hgrow with hgrow | ⟨hgrow, hsent⟩
    · exact .inl hgrow
    · refine .inr ⟨hgrow, ?_⟩
      rw [htool]
      split_ifs <;> simp only [setName_sent, hsent]
  · rw [hknown]
    intro hnil
    exact hlawful.named (append_eq_nil_iff.mp hnil).2
  · rw [hknown] at hk
    rcases mem_append.mp hk with hk | hk
    · exact hopened₃.leads k (h.registered _ k hk)
    · exact hopened₃.names k (hnames k hk)

omit [DecidableEq ι] hfunctional in
theorem itemNames_owned (hitem : event.item = some item) (hown : ∀ k ∈ eventNames event, own k x) :
    ∀ k ∈ linkNames event ++ ((nonBlank item.callId).map ToolKey.call).toList, own k x := by
  intro k hk
  rcases mem_append.mp hk with hk | hk
  · exact linkNames_owned hown hk
  · refine hown k (mem_append_right _ ?_)
    rw [hitem, Option.bind_some]
    exact hk

omit [DecidableEq ι] hfunctional in
theorem output_mem_itemNames (hkey : keyForEvent event = some key) (n : ℤ)
    (hn : .output n ∈ linkNames event ++ ((nonBlank item.callId).map ToolKey.call).toList) : key = .output n := by
  rcases mem_append.mp hn with hn | hn
  · rw [keyForEvent_output (output_mem_linkNames hn)] at hkey
    exact (Option.some.inj hkey).symm
  · simp at hn

include h in
theorem inStep_item_known (hfits : Fits call pre (.item event))
    (hlawful : Lawful call own given pre (.item event)) (hx : call (.item event) ∈ order) :
    InStep call own given (pre ++ [.item event]) (fs ++ (toolItem event b).1) order (toolItem event b).2 := by
  obtain ⟨item, hitem⟩ := Option.ne_none_iff_exists'.mp (hlawful.item event rfl)
  obtain ⟨key, hkey⟩ := keyForEvent_isSome hlawful.named
  obtain ⟨j, b₁, hfound, hj, hmaps, hlookup, htools, hleads, hpending⟩ :=
    @toolForKey_known _ _ own hfunctional order b _ event h.telling.maps item key hlawful.owned hkey
      (h.linked hfits (.inl rfl) hx)
  have hkept : b₁.Kept := by
    unfold Kept
    rw [hpending]
    exact h.telling.keptText
  have hgone : ∀ k, own k (call (.item event)) → b.pending k = none := fun k hk =>
    h.telling.pending_known hfunctional hx hk
  have hown := itemNames_owned hitem hlawful.owned
  have hlinks := @links_call _ event item key j b₁ hkept
  have hopened : Opened own _ order (call (.item event)) j b _ :=
    opened_of_links hmaps hj hlookup hlinks hown (output_mem_itemNames hkey)
      (fun q _ => congrFun htools q) hleads hpending (fun k hk _ => hgone k hk)
  have htold := h.telling.told j _ hj
  have hdrained : String.join ((linkNames event ++ ((nonBlank item.callId).map ToolKey.call).toList).map
      fun k => (b₁.pending k).getD "") = "" := by
    refine GoText.join_map_empty fun k hk => ?_
    rw [hpending, hgone k (hown k hk)]
    rfl
  have hargs := hlinks.arguments
  rw [hdrained, String.append_empty, htools, htold.arguments] at hargs
  have hprogress := hlinks.progress
  rw [htools] at hprogress
  rw [toolItem_eq hitem hkey hfound]
  generalize linkCallID item key j (linkItemID (responseStreamEventItemID event) key j
    (linkOutputIndex event.outputIndex key j b₁)) = b₂ at hopened hargs hprogress ⊢
  refine h.stepItem hfunctional hlawful hitem hopened (fun k hk => mem_append_left _ hk) (.inl rfl)
    (a := told call given (call (.item event)) pre) ?_ hargs ⟨"", by rw [String.append_empty]⟩
  have howes := htold.owes
  refine ⟨hprogress.index.trans howes.index, by rw [String.append_empty],
    hprogress.argsSentAt.trans howes.sentAt, hprogress.nameSent.trans howes.nameSent, ?_,
    howes.argumentsAt, howes.namesAt⟩
  rw [hprogress.name]
  exact howes.name

include h in
theorem inStep_item_unknown (hfits : Fits call pre (.item event))
    (hlawful : Lawful call own given pre (.item event)) (hx : call (.item event) ∉ order) :
    InStep call own given (pre ++ [.item event]) (fs ++ (toolItem event b).1)
      (order ++ [call (.item event)]) (toolItem event b).2 := by
  obtain ⟨item, hitem⟩ := Option.ne_none_iff_exists'.mp (hlawful.item event rfl)
  obtain ⟨key, hkey⟩ := keyForEvent_isSome hlawful.named
  have hempty := h.known_nil hx
  have hownkey := hlawful.owned key (keyForEvent_mem hkey)
  have hfound : toolForKey key event item b = (order.length, (b.newTool key "").2) := by
    rw [toolForKey_unknown hfunctional h.telling.maps hitem hlawful.owned hownkey hx, ← h.telling.maps.count]
    rfl
  have hkept : (b.newTool key "").2.Kept := by
    unfold Kept
    rw [pending_newTool]
    exact h.telling.keptText
  obtain ⟨hopened, hargs, hindex, hsent, hnameSent, hsentAt, hname⟩ :=
    h.telling.open_fresh hfunctional hx "" (links_call event item hkept) hownkey
      (linkNames_nodup event (nonBlank item.callId)) (itemNames_owned hitem hlawful.owned)
      (output_mem_itemNames hkey)
      (fun k hk => mem_append_left _ (hfits.opening hempty rfl k hk))
      (waiting_ne_nil hlawful.before)
  obtain ⟨huntold, hnone⟩ := h.telling.untold _ hx
  rw [toolItem_eq hitem hkey hfound]
  generalize linkCallID item key order.length (linkItemID (responseStreamEventItemID event)
    key order.length (linkOutputIndex event.outputIndex key order.length (b.newTool key "").2)) = b₂
    at hopened hargs hindex hsent hnameSent hsentAt hname ⊢
  refine h.stepItem hfunctional hlawful hitem hopened (fun k hk => mem_append_left _ hk)
    (.inr ⟨rfl, hsent⟩) (a := "") ?_ (hargs.trans huntold.symm)
    ⟨told call given (call (.item event)) pre, by rw [String.empty_append]⟩
  rw [hnone]
  exact h.telling.owes_fresh hindex rfl hsentAt hnameSent (by rw [if_pos hname])

include hitemID in
/-- **Step**: an event that fits the ones before it. -/
theorem inStep_step (h : InStep call own given pre fs order b) (hfits : Fits call pre t)
    (hlawful : Lawful call own given pre t) :
    ∃ order', InStep call own given (pre ++ [t]) (fs ++ (t.program b).1) order' (t.program b).2 := by
  cases t with
  | item event =>
    by_cases hx : call (.item event) ∈ order
    · exact ⟨order, inStep_item_known hfunctional h hfits hlawful hx⟩
    · exact ⟨_, inStep_item_unknown hfunctional h hfits hlawful hx⟩
  | argsDelta event =>
    by_cases hdelta : event.delta = ""
    · have hprogram : (ToolEvent.argsDelta event).program b = ([], b) := if_pos hdelta
      rw [hprogram, append_nil]
      refine ⟨order, h.idle rfl hdelta rfl fun x => ?_⟩
      rw [known_concat]
      unfold learn
      split_ifs <;> rfl
    · by_cases hx : call (.argsDelta event) ∈ order
      · exact ⟨order, inStep_delta_known hfunctional h hfits hlawful hdelta hx⟩
      · exact ⟨order, inStep_delta_unknown hfunctional h hfits hlawful hdelta hx⟩
  | argsDone event =>
    by_cases hx : call (.argsDone event) ∈ order
    · exact ⟨order, inStep_done_known hfunctional h hfits hlawful hx⟩
    · exact ⟨_, inStep_done_unknown hfunctional hitemID h hfits hlawful hx⟩

end steps

/-! ### The end of the stream -/

section flush

variable {ι : Type} {own : ToolKey → ι → Prop} {args : ι → String} {first : ι → Option String}
  {dl : ι → String} {wt : ι → List ToolKey} {fs : List ToolCallResponse} {order : List ι} {b : ToolBook}

theorem drainKey_spec (key : ToolKey) (p : ℕ) (b : ToolBook) :
    (b.drainKey key p).nextToolIndex = b.nextToolIndex ∧ (b.drainKey key p).toolByKey = b.toolByKey ∧
      (b.drainKey key p).leads = b.leads ∧ (∀ k, (b.drainKey key p).pending k = if k = key then none else b.pending k) ∧
      (∀ q, q ≠ p → (b.drainKey key p).tools q = b.tools q) ∧ (b.drainKey key p).tools p =
        { b.tools p with arguments := (b.tools p).arguments ++ (b.pending key).getD "" } := by
  cases key with
  | output n =>
    refine ⟨rfl, rfl, funext fun k => by cases k <;> rfl, fun k => ?_, fun q hq => update_of_ne hq _ _, update_self ..⟩
    cases k with
    | output m =>
      by_cases hm : m = n
      · subst hm
        simp [drainKey, pending, lookup_erase]
      · simp [drainKey, pending, hm, lookup_erase_ne]
    | item y => simp [drainKey, pending, ToolBook.modify]
    | call c => simp [pending]
  | item y =>
    refine ⟨rfl, rfl, funext fun k => by cases k <;> rfl, fun k => ?_, fun q hq => update_of_ne hq _ _, update_self ..⟩
    cases k with
    | item z =>
      by_cases hz : z = y
      · subst hz
        simp [drainKey, pending, lookup_erase]
      · simp [drainKey, pending, hz, lookup_erase_ne]
    | output n => simp [drainKey, pending, ToolBook.modify]
    | call c => simp [pending]
  | call c =>
    refine ⟨rfl, rfl, rfl, fun k => ?_, fun q _ => rfl, ?_⟩
    · split_ifs with hk
      · rw [hk]
        rfl
      · rfl
    · show b.tools p = { b.tools p with arguments := (b.tools p).arguments ++ "" }
      rw [String.append_empty]

section round

variable {order' : List ι} {x : ι} {p : ℕ} {b₁ : ToolBook} (hpending : b₁.pending = b.pending)
include hpending

theorem opened_drain (hmaps : Maps own order' b₁) (hplace : order'[p]? = some x) (hown : own key x)
    (htools : ∀ q, q ≠ p → b₁.tools q = b.tools q) (hleads : b₁.leads = b.leads)
    (hdrained : ∀ k, own k x → k ≠ key → b.pending k = none) :
    Opened own [] order' x p b (b₁.drainKey key p) := by
  obtain ⟨hnext, hkeys, hleads', hpending', htools', -⟩ := drainKey_spec key p b₁
  refine ⟨hmaps.congr hnext hkeys hleads', hplace, fun q hq => (htools' q hq).trans (htools q hq), fun k hk => ?_,
    fun k hk => ?_, nofun, fun k hk => ?_⟩
  · rw [hpending', hpending]
    split_ifs with hkk
    · rfl
    · exact hdrained k hk hkk
  · rw [hpending', hpending, if_neg]
    rintro rfl
    exact hk hown
  · rw [hleads', hleads]
    exact hk

theorem flushKey_maps (hprogram : flushKey key b = toolDelta p "" (b₁.drainKey key p)) :
    (flushKey key b).2.toolByKey = b₁.toolByKey ∧
      ∀ k, (flushKey key b).2.pending k = if k = key then none else b.pending k := by
  obtain ⟨-, hkeys, -, hpending', -⟩ := drainKey_spec key p b₁
  obtain ⟨-, hkeys', -, hsame⟩ := toolDelta_maps p "" (b₁.drainKey key p)
  rw [hprogram, hkeys', hsame, ← hpending]
  exact ⟨hkeys, hpending'⟩

end round

/-- One round of the flush: a key with a tool has nothing to add, a key without one has text waiting. -/
theorem telling_flushKey (hfunctional : ∀ k x y, own k x → own k y → x = y)
    (hwaiting : ∀ x, dl x ≠ "" → wt x ≠ []) (h : Telling own args first dl wt fs order b)
    (hkey : b.toolByKey.lookup key ≠ none ∨ b.pending key ≠ none) :
    ∃ order', Telling own args first dl wt (fs ++ (flushKey key b).1) order' (flushKey key b).2 ∧
      (∀ x ∈ order', x ∈ order ∨ dl x ≠ "") ∧ (∀ x ∈ order, x ∈ order') ∧
      (∀ k, (flushKey key b).2.pending k = if k = key then none else b.pending k) ∧
      (∀ k, b.toolByKey.lookup k ≠ none → (flushKey key b).2.toolByKey.lookup k ≠ none) ∧
      (flushKey key b).2.toolByKey.lookup key ≠ none := by
  cases hlookup : b.toolByKey.lookup key with
  | some p =>
    -- nothing is kept under a name of a call that has a tool
    obtain ⟨x, hp, hown⟩ := h.maps.keys key p hlookup
    have hgone {k} (hk : own k x) := h.pending_known hfunctional (mem_of_getElem? hp) hk
    have hprogram : flushKey key b = toolDelta p "" (b.drainKey key p) := by
      unfold flushKey
      rw [hlookup]
    have htool : b.tools p = (b.drainKey key p).tools p := by
      rw [(drainKey_spec key p b).2.2.2.2.2, hgone hown, Option.getD_none, String.append_empty]
    obtain ⟨hkeys, hpending⟩ := flushKey_maps rfl hprogram
    refine ⟨order, ?_, fun x hx => .inl hx, fun x hx => hx, hpending, ?_, ?_⟩
    · rw [hprogram]
      exact h.touch hfunctional (fun y _ => ⟨rfl, rfl, rfl, rfl⟩)
        (opened_drain rfl h.maps hp hown (fun _ _ => rfl) rfl fun k hk _ => hgone hk) (.inl rfl)
        (htool ▸ (h.told p x hp).owes) String.append_empty.symm (.inl rfl)
    · rw [hkeys]
      exact fun k hk => hk
    · rw [hkeys, hlookup]
      simp
  | none =>
    -- what is kept belongs to a call without a tool, which is told for the first time
    obtain ⟨s, hs⟩ := Option.ne_none_iff_exists'.mp (hkey.resolve_left (by simp [hlookup]))
    obtain ⟨hne, x, hx, hown, hdl, hwt⟩ := h.kept key s hs
    obtain ⟨hmaps, hlookup₁, -⟩ := h.maps.newTool key.callID hlookup hx hown
    have hprogram : flushKey key b =
        toolDelta order.length "" ((b.newTool key key.callID).2.drainKey key order.length) := by
      unfold flushKey
      simp only [hlookup]
      rw [← h.maps.count]
      rfl
    have htool : ((b.newTool key key.callID).2.drainKey key order.length).tools order.length =
        { key, callID := key.callID, index := order.length, arguments := s } := by
      have hnew : (b.newTool key key.callID).2.tools order.length =
          { key, callID := key.callID, index := order.length } := by
        rw [← h.maps.count]
        exact update_self ..
      rw [(drainKey_spec key order.length _).2.2.2.2.2, hnew, pending_newTool, hs, Option.getD_some, String.empty_append]
    obtain ⟨-, hdrained⟩ := h.drained hfunctional hx (nodup_singleton key) (fun k hk => mem_singleton.mp hk ▸ hown)
      (fun k hk => mem_singleton.mpr (hwt k hk)) (hwaiting x)
    obtain ⟨huntold, hfirst⟩ := h.untold x hx
    obtain ⟨hkeys, hpending⟩ := flushKey_maps (pending_newTool ..) hprogram
    refine ⟨order ++ [x], ?_, fun y hy => ?_, fun y hy => mem_append_left _ hy, hpending, fun k hk => ?_, ?_⟩
    · have hopened : Opened own [] (order ++ [x]) x order.length b
          ((b.newTool key key.callID).2.drainKey key order.length) := by
        refine opened_drain (pending_newTool ..) hmaps (by simp) hown (fun q hq => ?_) (leads_newTool ..)
          fun k hk hkk => hdrained k hk (by simpa using hkk)
        rw [← h.maps.count] at hq
        exact update_of_ne hq _ _
      have howes : Owes "" s none (first x) fs order.length
          (((b.newTool key key.callID).2.drainKey key order.length).tools order.length) := by
        rw [htool]
        exact h.owes_fresh rfl rfl rfl rfl hfirst
      rw [hprogram]
      refine h.touch hfunctional (fun y _ => ⟨rfl, rfl, rfl, rfl⟩) hopened (.inr ⟨rfl, by rw [htool]⟩) howes ?_ (.inl rfl)
      rw [huntold, hdl, String.empty_append]
    · rcases mem_append.mp hy with hy | hy
      · exact .inl hy
      · rw [mem_singleton.mp hy, ← hdl]
        exact .inr hne
    · rw [hkeys]
      by_cases hkk : k = key
      · rw [hkk, hlookup₁]
        simp
      · exact (lookup_insert_ne hkk).symm ▸ hk
    · rw [hkeys, hlookup₁]
      simp

/-- **Flush**: after the keys with a tool and the keys with text nothing waits. -/
theorem telling_each_flushKey (hfunctional : ∀ k x y, own k x → own k y → x = y)
    (hwaiting : ∀ x, dl x ≠ "" → wt x ≠ []) {keys : List ToolKey} (h : Telling own args first dl wt fs order b)
    (hkeys : ∀ k ∈ keys, b.toolByKey.lookup k ≠ none ∨ b.pending k ≠ none) (hall : ∀ k, b.pending k ≠ none → k ∈ keys) :
    ∃ order', Telling own args first dl wt (fs ++ (Emit.each flushKey keys b).1) order' (Emit.each flushKey keys b).2 ∧
      (∀ x ∈ order', x ∈ order ∨ dl x ≠ "") ∧ (∀ x ∈ order, x ∈ order') ∧ ∀ x, dl x ≠ "" → x ∈ order' := by
  induction keys generalizing fs order b with
  | nil =>
    refine ⟨order, ?_, fun x hx => .inl hx, fun x hx => hx, fun x hdl => ?_⟩
    · rw [Emit.each_nil, append_nil]
      exact h
    · by_contra hx
      obtain ⟨k, -, hk⟩ := h.waits x hx hdl
      have hmem := hall k (by rw [hk]; simp)
      cases hmem
  | cons key keys ih =>
    obtain ⟨order₁, h₁, hnew, hold, hpending, hmono, hself⟩ :=
      telling_flushKey hfunctional hwaiting h (hkeys key mem_cons_self)
    obtain ⟨order₂, h₂, hnew₂, hold₂, hdone⟩ := ih h₁ (fun k hk => by
        rcases hkeys k (mem_cons_of_mem _ hk) with hk' | hk'
        · exact .inl (hmono k hk')
        · by_cases hkk : k = key
          · exact .inl (hkk ▸ hself)
          · exact .inr (by rw [hpending, if_neg hkk]; exact hk'))
      (fun k hk => by
        rw [hpending] at hk
        by_cases hkk : k = key
        · rw [if_pos hkk] at hk
          exact absurd rfl hk
        · rw [if_neg hkk] at hk
          exact (mem_cons.mp (hall k hk)).resolve_left hkk)
    refine ⟨order₂, ?_, fun x hx => ?_, fun x hx => hold₂ x (hold x hx), hdone⟩
    · rw [Emit.each_cons, ← append_assoc]
      exact h₂
    · rcases hnew₂ x hx with hx | hx
      · exact hnew x hx
      · exact .inr hx

theorem mem_flushKeys : k ∈ b.flushKeys ↔ b.toolByKey.lookup k ≠ none ∨ b.pending k ≠ none := by
  have hmem : ∀ {α β : Type} [DecidableEq α] (m : AList fun _ : α => β) (a : α), a ∈ m.keys ↔ m.lookup a ≠ none := by
    intro α β _ m a
    rw [← AList.mem_keys, ← AList.lookup_isSome, Option.isSome_iff_ne_none]
  unfold flushKeys
  simp only [mem_append, mem_filter, mem_map, decide_eq_true_eq, hmem]
  cases k with
  | output n =>
    simp only [pending, ToolKey.output.injEq, exists_eq_right, reduceCtorEq, and_false, exists_false, or_false]
    tauto
  | item y =>
    simp only [pending, ToolKey.item.injEq, exists_eq_right, reduceCtorEq, and_false, exists_false, false_or]
    tauto
  | call c => simp [pending]

theorem telling_flush (hfunctional : ∀ k x y, own k x → own k y → x = y)
    (hwaiting : ∀ x, dl x ≠ "" → wt x ≠ []) (h : Telling own args first dl wt fs order b) :
    ∃ order', Telling own args first dl wt (fs ++ (flushAllPendingTools b).1) order' (flushAllPendingTools b).2 ∧
      (∀ x ∈ order', x ∈ order ∨ dl x ≠ "") ∧ (∀ x ∈ order, x ∈ order') ∧ ∀ x, dl x ≠ "" → x ∈ order' := by
  refine telling_each_flushKey hfunctional hwaiting h (fun k hk => ?_) (fun k hk => ?_)
  · exact mem_flushKeys.mp ((mem_insertionSort _).mp hk)
  · exact (mem_insertionSort _).mpr (mem_flushKeys.mpr (.inr hk))

end flush

end WynthApi.Relay
