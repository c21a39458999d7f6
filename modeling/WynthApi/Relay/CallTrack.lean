import Mathlib.Tactic.MkIffOfInductiveProp
import WynthApi.Relay.ToolLinks

/-!
# The tool book follows the calls

The events that bear on tool calls (`ToolEvent`) are told apart by the call they belong to: `call` says
which one that is.  From the events seen so far follows what the fragments must have told of a call,
under which names it is known (`known`) and what of it still waits to be told (`deltas`, `waiting`).

`Telling` says that the book and the fragments agree with this.
-/

namespace WynthApi.Relay

open ToolBook List String Option Function

inductive ToolEvent (Usage : Type)
  /-- an item was added or is done, or the terminal response lists it -/
  | item (event : ResponsesStreamResponse Usage)
  | argsDelta (event : ResponsesStreamResponse Usage)
  | argsDone (event : ResponsesStreamResponse Usage)
  deriving DecidableEq, Repr

section events

variable {Usage : Type}

namespace ToolEvent

def event : ToolEvent Usage → ResponsesStreamResponse Usage
  | .item event => event
  | .argsDelta event => event
  | .argsDone event => event

def program : ToolEvent Usage → Emit.Program ToolBook ToolCallResponse
  | .item event => toolItem event
  | .argsDelta event => toolArgumentsDelta event
  | .argsDone event => flushPendingTool event

def itemID : ToolEvent Usage → Option String
  | .item event => responseStreamEventItemID event
  | .argsDelta event => nonBlank event.itemID
  | .argsDone event => nonBlank event.itemID

variable (t : ToolEvent Usage)

def names : List ToolKey :=
  (t.event.outputIndex.map .output).toList ++ (t.itemID.map .item).toList

def callID : Option String := t.event.item.bind fun item => nonBlank item.callId

def delta : ToolEvent Usage → String
  | .argsDelta event => event.delta
  | _ => ""

def arguments : ToolEvent Usage → String
  | .item event => (event.item.map ResponsesOutput.argumentsString).getD ""
  | _ => ""

def name : ToolEvent Usage → Option String
  | .item event => event.item.bind fun item => nonBlank item.name
  | _ => none

def opens : ToolEvent Usage → Bool
  | .argsDelta _ => false
  | _ => true

end ToolEvent

/-! ### What the events say of a call -/

variable {ι : Type} [DecidableEq ι] (call : ToolEvent Usage → ι)

variable (x : ι) (ts : List (ToolEvent Usage))

def deltas : String :=
  String.join (ts.map fun t => if call t = x then t.delta else "")

def Itemized : Prop := ∃ t ∈ ts, call t = x ∧ t.arguments ≠ ""

instance (x : ι) (ts : List (ToolEvent Usage)) : Decidable (Itemized call x ts) :=
  inferInstanceAs (Decidable (∃ t ∈ ts, _))

def firstName : Option String :=
  (ts.filterMap fun t => if call t = x then t.name else none).head?

/-- An item adds its names to those a call is known by, the end of the arguments only if there are none. -/
def learn (x : ι) (known : List ToolKey) (t : ToolEvent Usage) : List ToolKey :=
  if call t = x then
    match t with
    | .item _ => known ++ t.names
    | .argsDone _ => if known = [] then t.names else known
    | .argsDelta _ => known
  else known

def known : List ToolKey := ts.foldl (learn call x) []

/-- The names under which deltas of a call were kept if it was not known. -/
def waiting : List ToolKey :=
  (ts.filter fun t => call t = x ∧ t.delta ≠ "").filterMap fun t => t.names.head?

/-- An event fits the ones before it: a known call is named by a name it is known by (unless the event is an empty
delta), the deltas of another are all kept under one name, which the event that makes it known carries, and no delta
follows an item with arguments. -/
@[mk_iff]
structure Fits (pre : List (ToolEvent Usage)) (t : ToolEvent Usage) : Prop where
  named : t.opens = true ∨ t.delta ≠ "" → known call (call t) pre ≠ [] → ∃ k ∈ t.names, k ∈ known call (call t) pre
  opening : known call (call t) pre = [] → t.opens = true → ∀ k ∈ waiting call (call t) pre, k ∈ t.names
  keeping : known call (call t) pre = [] → t.delta ≠ "" →
    ∀ k ∈ waiting call (call t) pre, t.names.head? = some k
  fresh : t.delta ≠ "" → ¬ Itemized call (call t) pre

instance (pre : List (ToolEvent Usage)) (t : ToolEvent Usage) : Decidable (Fits call pre t) :=
  decidable_of_iff' _ (fits_iff call pre t)

variable {call}

variable (x : ι) (ts : List (ToolEvent Usage)) (t : ToolEvent Usage)

theorem deltas_concat : deltas call x (ts ++ [t]) = deltas call x ts ++ if call t = x then t.delta else "" := by
  simp [deltas, join_append]

variable {x : ι}

variable {ts : List (ToolEvent Usage)}

omit [DecidableEq ι] in
theorem itemized_concat {t : ToolEvent Usage} :
    Itemized call x (ts ++ [t]) ↔ Itemized call x ts ∨ (call t = x ∧ t.arguments ≠ "") := by
  simp [Itemized, or_and_right, exists_or]

theorem firstName_concat :
    firstName call x (ts ++ [t]) = (firstName call x ts).or (if call t = x then t.name else none) := by
  unfold firstName
  rw [filterMap_append, head?_append]
  congr 1
  cases h : (if call t = x then t.name else none) <;> simp [h]

theorem known_concat : known call x (ts ++ [t]) = learn call x (known call x ts) t := by
  simp [known, foldl_append]

theorem waiting_concat :
    waiting call x (ts ++ [t]) =
      waiting call x ts ++ if call t = x ∧ t.delta ≠ "" then t.names.head?.toList else [] := by
  unfold waiting
  rw [filter_append, filterMap_append]
  congr 1
  by_cases h : call t = x ∧ t.delta ≠ ""
  · rw [filter_cons_of_pos (by simpa using h), if_pos h]
    cases hnames : t.names <;> simp [hnames]
  · rw [filter_cons_of_neg (by simpa using h), if_neg h]
    rfl

theorem learn_other {k : List ToolKey} {t : ToolEvent Usage} (h : call t ≠ x) : learn call x k t = k := if_neg h

theorem waiting_ne_nil (hnamed : ∀ t ∈ ts, t.names ≠ []) (h : deltas call x ts ≠ "") : waiting call x ts ≠ [] := by
  induction ts using reverseRecOn with
  | nil => exact absurd rfl h
  | append_singleton ts t ih =>
    rw [waiting_concat]
    by_cases ht : call t = x ∧ t.delta ≠ ""
    · have hne : t.names.head? ≠ none := by
        rw [ne_eq, head?_eq_none_iff]
        exact hnamed t (by simp)
      obtain ⟨k, hk⟩ := ne_none_iff_exists'.mp hne
      simp [ht, hk]
    · have hprev : deltas call x ts ≠ "" := by
        rw [deltas_concat] at h
        by_cases hx : call t = x
        · have hdelta : t.delta = "" := by
            by_contra hne
            exact ht ⟨hx, hne⟩
          rwa [if_pos hx, hdelta, append_empty] at h
        · rwa [if_neg hx, append_empty] at h
      simp [ih (fun t ht => hnamed t (mem_append_left _ ht)) hprev]

end events

/-! ### What the fragments tell -/

section fragments

variable (j : ℕ) (fs : List ToolCallResponse)

def fragmentsAt : List ToolCallResponse :=
  fs.filter fun f => f.index = some (j : ℤ)

def argumentsAt : String :=
  String.join ((fragmentsAt j fs).map fun f => f.function.arguments)

def namesAt : List String :=
  ((fragmentsAt j fs).map fun f => f.function.name).filter (· ≠ "")

/-- The number of indices after the fragments, if new ones come in the order `n`, `n + 1`, …. -/
def created : ℕ → List ToolCallResponse → Option ℕ
  | n, [] => some n
  | n, f :: fs =>
    if f.index = some (n : ℤ) then created (n + 1) fs
    else if ∃ j < n, f.index = some (j : ℤ) then created n fs
    else none

theorem created_cons (n : ℕ) (f : ToolCallResponse) (fs : List ToolCallResponse) :
    created n (f :: fs) = if f.index = some (n : ℤ) then created (n + 1) fs
      else if ∃ j < n, f.index = some (j : ℤ) then created n fs else none := rfl

theorem created_append (n : ℕ) (fs gs : List ToolCallResponse) :
    created n (fs ++ gs) = (created n fs).bind fun m => created m gs := by
  induction fs generalizing n with
  | nil => rfl
  | cons f fs ih =>
    rw [cons_append, created_cons, created_cons]
    split_ifs
    · exact ih (n + 1)
    · exact ih n
    · rfl

variable {fs : List ToolCallResponse} {tool : ResponsesStreamTool} {j : ℕ}

theorem le_of_created {n m : ℕ} (h : created n fs = some m) : n ≤ m := by
  induction fs generalizing n with
  | nil => exact le_of_eq (some.inj h)
  | cons f fs ih =>
    rw [created_cons] at h
    split_ifs at h
    · have := ih h
      omega
    · exact ih h

theorem fragmentsAt_of_created {n m j : ℕ} (h : created n fs = some m) (hj : m ≤ j) : fragmentsAt j fs = [] := by
  induction fs generalizing n with
  | nil => rfl
  | cons f fs ih =>
    have hne : f.index ≠ some (j : ℤ) := by
      intro hf
      rw [created_cons] at h
      split_ifs at h with hnew hold
      · have hle := le_of_created h
        rw [hnew, some.injEq] at hf
        omega
      · obtain ⟨i, hi, hfi⟩ := hold
        have hle := le_of_created h
        rw [hfi, some.injEq] at hf
        omega
    have hrest : fragmentsAt j fs = [] := by
      rw [created_cons] at h
      split_ifs at h <;> exact ih h
    unfold fragmentsAt at hrest ⊢
    rw [filter_cons_of_neg (by simpa using hne)]
    exact hrest

theorem argumentsAt_append (j : ℕ) (fs gs : List ToolCallResponse) :
    argumentsAt j (fs ++ gs) = argumentsAt j fs ++ argumentsAt j gs := by
  simp [argumentsAt, fragmentsAt, join_append]

theorem namesAt_append (j : ℕ) (fs gs : List ToolCallResponse) :
    namesAt j (fs ++ gs) = namesAt j fs ++ namesAt j gs := by
  simp [namesAt, fragmentsAt]

theorem at_other {j p : ℕ} {gs : List ToolCallResponse} (hgs : ∀ g ∈ gs, g.index = some (p : ℤ))
    (hj : j ≠ p) : argumentsAt j gs = "" ∧ namesAt j gs = [] := by
  have hnil : fragmentsAt j gs = [] := by
    refine filter_eq_nil_iff.mpr fun g hg => ?_
    have hne : (p : ℤ) ≠ j := by omega
    simp [hgs g hg, hne]
  simp [argumentsAt, namesAt, hnil]

structure Told (args : String) (first : Option String) (fs : List ToolCallResponse) (j : ℕ)
    (tool : ResponsesStreamTool) : Prop where
  index : tool.index = j
  sent : tool.sent = true
  arguments : tool.arguments = args
  sentAt : tool.argsSentAt = args.length
  nameSent : tool.nameSent = first.isSome
  name : first = none → tool.name = ""
  argumentsAt : argumentsAt j fs = args
  namesAt : namesAt j fs = first.toList

/-- Of a tool `a` and `first` have been told, `r` and what is new of `first'` have not. -/
structure Owes (a r : String) (first first' : Option String) (fs : List ToolCallResponse) (j : ℕ)
    (tool : ResponsesStreamTool) : Prop where
  index : tool.index = j
  arguments : tool.arguments = a ++ r
  sentAt : tool.argsSentAt = a.length
  nameSent : tool.nameSent = first.isSome
  name : first' = first.or (if tool.name = "" then none else some tool.name)
  argumentsAt : argumentsAt j fs = a
  namesAt : namesAt j fs = first.toList

theorem Told.owes {args : String} {first : Option String} (h : Told args first fs j tool) :
    Owes args "" first first fs j tool := by
  refine ⟨h.index, ?_, h.sentAt, h.nameSent, ?_, h.argumentsAt, h.namesAt⟩
  · rw [h.arguments, append_empty]
  · cases hfirst : first with
    | none => simp [h.name hfirst]
    | some name => rfl

theorem Told.frame {args : String} {first : Option String} {fs gs : List ToolCallResponse} {j p : ℕ}
    (h : Told args first fs j tool) (hgs : ∀ g ∈ gs, g.index = some (p : ℤ)) (hj : j ≠ p) :
    Told args first (fs ++ gs) j tool := by
  obtain ⟨hargs, hnames⟩ := at_other hgs hj
  refine ⟨h.index, h.sent, h.arguments, h.sentAt, h.nameSent, h.name, ?_, ?_⟩
  · rw [argumentsAt_append, hargs, append_empty]
    exact h.argumentsAt
  · rw [namesAt_append, hnames, append_nil]
    exact h.namesAt

variable {a r explicit : String} {first first' : Option String} {fs : List ToolCallResponse} {p : ℕ}

theorem Owes.argsDelta (h : Owes a r first first' fs p tool) (hexplicit : explicit = "" ∨ explicit = r) :
    tool.argsDelta explicit = r := by
  unfold ResponsesStreamTool.argsDelta
  rw [h.arguments, h.sentAt, String.length_append]
  rcases hexplicit with rfl | rfl
  · by_cases hr : r = ""
    · subst hr
      simp
    · have hlength : 0 < r.length := by
        have := mt String.length_eq_zero_iff.mp hr
        omega
      rw [if_pos ⟨rfl, by omega⟩, GoText.sliceFrom_append]
  · by_cases hr : explicit = ""
    · subst hr
      simp
    · rw [if_neg (by simp [hr])]

theorem argumentsAt_fragment (hindex : tool.index = p) (r : String) : argumentsAt p [tool.fragment r] = r := by
  simp [argumentsAt, fragmentsAt, ResponsesStreamTool.fragment, hindex]

theorem namesAt_fragment (hindex : tool.index = p) (r : String) : namesAt p [tool.fragment r] =
      if tool.nameSent = true ∨ tool.name = "" then [] else [tool.name] := by
  unfold namesAt fragmentsAt ResponsesStreamTool.fragment
  by_cases hsent : tool.nameSent = true
  · simp [hindex, hsent]
  · by_cases hname : tool.name = "" <;> simp [hindex, hsent, hname]

/-- **Fragment rule**: `toolDelta` tells what is owed, in at most one fragment, and in one if nothing was
told before. -/
theorem toolDelta_told {b : ToolBook} (h : Owes a r first first' fs p (b.tools p))
    (hexplicit : explicit = "" ∨ explicit = r) :
    Told (a ++ r) first' (fs ++ (toolDelta p explicit b).1) p ((toolDelta p explicit b).2.tools p) ∧
      (∀ q, q ≠ p → (toolDelta p explicit b).2.tools q = b.tools q) ∧
      (((toolDelta p explicit b).1 = [] ∧ (b.tools p).sent = true) ∨
        ∃ f, (toolDelta p explicit b).1 = [f] ∧ f.index = some (p : ℤ)) := by
  have hargs := h.argsDelta hexplicit
  unfold toolDelta
  simp only [hargs]
  split_ifs with hnothing
  · obtain ⟨hsent, hr, hname⟩ := hnothing
    have hfirst : first' = first := by
      rw [h.name]
      rcases hname with hname | hname
      · rw [if_pos hname, or_none]
      · rw [h.nameSent] at hname
        rw [or_of_isSome hname]
    subst hr
    refine ⟨⟨h.index, hsent, h.arguments, ?_, ?_, ?_, ?_, ?_⟩, fun q _ => rfl, .inl ⟨rfl, hsent⟩⟩
    · rw [append_empty]
      exact h.sentAt
    · rw [hfirst]
      exact h.nameSent
    · intro hnone
      rcases hname with hname | hname
      · exact hname
      · rw [h.nameSent, ← hfirst, hnone] at hname
        cases hname
    · rw [append_nil, append_empty]
      exact h.argumentsAt
    · rw [append_nil, hfirst]
      exact h.namesAt
  · refine ⟨?_, fun q hq => update_of_ne hq _ _, .inr ⟨_, rfl, ?_⟩⟩
    · simp only [tools_modify_self]
      refine ⟨h.index, rfl, h.arguments, ?_, ?_, ?_, ?_, ?_⟩
      · show (b.tools p).argsSentAt + r.length = _
        rw [h.sentAt, String.length_append]
      · show ((b.tools p).nameSent || decide ((b.tools p).name ≠ "")) = _
        rw [h.nameSent, h.name]
        cases first <;> by_cases hname : (b.tools p).name = "" <;> simp [hname]
      · intro hnone
        show (b.tools p).name = ""
        rw [h.name] at hnone
        by_contra hname
        rw [if_neg hname] at hnone
        cases first <;> cases hnone
      · rw [argumentsAt_append, h.argumentsAt, argumentsAt_fragment h.index]
      · rw [namesAt_append, h.namesAt, namesAt_fragment h.index, h.nameSent, h.name]
        cases first <;> by_cases hname : (b.tools p).name = "" <;> simp [hname]
    · show some ((b.tools p).index : ℤ) = _
      rw [h.index]

theorem toolDelta_maps (p : ℕ) (explicit : String) (b : ToolBook) :
    (toolDelta p explicit b).2.nextToolIndex = b.nextToolIndex ∧ (toolDelta p explicit b).2.toolByKey = b.toolByKey ∧
      (toolDelta p explicit b).2.leads = b.leads ∧ (toolDelta p explicit b).2.pending = b.pending := by
  unfold toolDelta
  simp only []
  split_ifs
  · exact ⟨rfl, rfl, rfl, rfl⟩
  · exact ⟨rfl, rfl, leads_modify .., pending_modify ..⟩

end fragments

/-! ### Finding the tool of an event -/

section find

variable {Usage : Type}

def eventNames (event : ResponsesStreamResponse Usage) : List ToolKey :=
  (event.outputIndex.map .output).toList ++ ((responseStreamEventItemID event).map .item).toList ++
    ((nonBlank event.itemID).map .item).toList ++
    ((event.item.bind fun item => nonBlank item.callId).map .call).toList

theorem keyForEvent_mem {event : ResponsesStreamResponse Usage} {key : ToolKey}
    (h : keyForEvent event = some key) : key ∈ eventNames event := by
  unfold keyForEvent at h
  unfold eventNames responseStreamEventItemID
  cases hindex : event.outputIndex with
  | some n =>
    rw [hindex] at h
    cases h
    simp
  | none =>
    rw [hindex, map_none, none_or] at h
    cases hitem : event.item with
    | none =>
      rw [hitem, bind_none, none_or] at h
      simp [h]
    | some item =>
      rw [hitem, bind_some] at h
      cases hid : nonBlank item.id with
      | some y =>
        rw [hid] at h
        cases h
        simp [hid]
      | none =>
        rw [hid, map_none, none_or] at h
        cases hcall : nonBlank item.callId with
        | some c =>
          rw [hcall] at h
          cases h
          simp [hcall]
        | none =>
          rw [hcall, map_none, none_or] at h
          simp [hid, hcall, h]

theorem keyForEvent_output {event : ResponsesStreamResponse Usage} {n : ℤ}
    (h : event.outputIndex = some n) : keyForEvent event = some (.output n) := by
  simp [keyForEvent, h]

theorem ToolEvent.names_subset {t : ToolEvent Usage} {k : ToolKey} (h : k ∈ t.names) : k ∈ eventNames t.event := by
  unfold eventNames
  rcases mem_append.mp h with hindex | hid
  · exact mem_append_left _ (mem_append_left _ (mem_append_left _ hindex))
  · cases t with
    | item event => exact mem_append_left _ (mem_append_left _ (mem_append_right _ hid))
    | argsDelta event | argsDone event =>
      exact mem_append_left _ (mem_append_right _ hid)

variable {ι : Type} {own : ToolKey → ι → Prop} (hfunctional : ∀ k x y, own k x → own k y → x = y)
  {order : List ι} {b : ToolBook} {x : ι} {event : ResponsesStreamResponse Usage}
include hfunctional

section

variable (h : Maps own order b)

include h

theorem find_unknown (hown : ∀ k ∈ eventNames event, own k x) (hx : x ∉ order) : b.findToolForEvent event = none := by
  have hindex : event.outputIndex.bind b.outputIndexToKey.lookup = none := by
    cases hn : event.outputIndex with
    | none => rfl
    | some n => exact h.lead_none hfunctional (hown (.output n) (by simp [eventNames, hn])) hx
  have hid : (nonBlank event.itemID).bind b.itemIDToKey.lookup = none := by
    cases hy : nonBlank event.itemID with
    | none => rfl
    | some y => exact h.lead_none hfunctional (hown (.item y) (by simp [eventNames, hy])) hx
  unfold findToolForEvent
  rw [hindex, hid]
  show (event.item.bind fun _ => keyForEvent event).bind b.toolByKey.lookup = none
  cases event.item with
  | none => rfl
  | some item =>
    cases hkey : keyForEvent event with
    | none => simp
    | some key =>
      have hfree := h.key_none hfunctional (hown key (keyForEvent_mem hkey)) hx
      simp [hfree]

theorem find_known (hown : ∀ k ∈ eventNames event, own k x)
    (hlinked : ∃ k ∈ (event.outputIndex.map ToolKey.output).toList ++
      ((nonBlank event.itemID).map .item).toList, b.leads k ≠ none) :
    ∃ j, b.findToolForEvent event = some j ∧ order[j]? = some x := by
  unfold findToolForEvent
  cases hindex : event.outputIndex.bind b.outputIndexToKey.lookup with
  | some key =>
    obtain ⟨n, hn, hkey⟩ := bind_eq_some_iff.mp hindex
    obtain ⟨j, hj, horder⟩ := h.lead_of hfunctional (hown (.output n) (by simp [eventNames, hn])) hkey
    exact ⟨j, hj, horder⟩
  | none =>
    obtain ⟨k, hk, hlead⟩ := hlinked
    rcases mem_append.mp hk with hk | hk
    · obtain ⟨n, hn, rfl⟩ : ∃ n, event.outputIndex = some n ∧ ToolKey.output n = k := by simpa using hk
      rw [hn] at hindex
      exact absurd hindex hlead
    · obtain ⟨y, hy, rfl⟩ : ∃ y, nonBlank event.itemID = some y ∧ ToolKey.item y = k := by simpa using hk
      obtain ⟨key, hkey⟩ := ne_none_iff_exists'.mp hlead
      obtain ⟨j, hj, horder⟩ := h.lead_of hfunctional (hown (.item y) (by simp [eventNames, hy])) hkey
      have hlookup : (nonBlank event.itemID).bind b.itemIDToKey.lookup = some key := by
        rw [hy]
        exact hkey
      rw [hlookup]
      exact ⟨j, hj, horder⟩

variable {item : ResponsesOutput} {key : ToolKey}

theorem toolForKey_unknown (hitem : event.item = some item)
    (hown : ∀ k ∈ eventNames event, own k x) (hkey : own key x) (hx : x ∉ order) :
    toolForKey key event item b = b.newTool key "" := by
  have hid : ((responseStreamEventItemID event).bind b.itemIDToKey.lookup) = none := by
    cases hy : responseStreamEventItemID event with
    | none => rfl
    | some y => exact h.lead_none hfunctional (hown (.item y) (by simp [eventNames, hy])) hx
  have hcall : ((nonBlank item.callId).bind b.callIDToKey.lookup) = none := by
    cases hc : nonBlank item.callId with
    | none => rfl
    | some c => exact h.lead_none hfunctional (hown (.call c) (by simp [eventNames, hitem, hc])) hx
  unfold toolForKey aliasedTool
  rw [h.key_none hfunctional hkey hx, hid, hcall]
  rfl

theorem toolForKey_known (hown : ∀ k ∈ eventNames event, own k x) (hkey : keyForEvent event = some key)
    (hlinked : ∃ k ∈ (event.outputIndex.map ToolKey.output).toList ++
      ((responseStreamEventItemID event).map .item).toList, b.leads k ≠ none) :
    ∃ j b', toolForKey key event item b = (j, b') ∧ order[j]? = some x ∧
      Maps own order b' ∧ b'.toolByKey.lookup key = some j ∧ b'.tools = b.tools ∧
      b'.leads = b.leads ∧ b'.pending = b.pending := by
  have hownkey := hown key (keyForEvent_mem hkey)
  unfold toolForKey
  cases hfound : b.toolByKey.lookup key with
  | some j => exact ⟨j, b, rfl, h.key_of hfunctional hownkey hfound, h, hfound, rfl, rfl, rfl⟩
  | none =>
    -- the output index would have led to the key itself, so it is the item id that is known
    have halias : ∃ j, aliasedTool event item b = some j ∧ order[j]? = some x := by
      obtain ⟨k, hk, hlead⟩ := hlinked
      obtain ⟨k', hk'⟩ := ne_none_iff_exists'.mp hlead
      rcases mem_append.mp hk with hk | hk
      · obtain ⟨n, hn, rfl⟩ : ∃ n, event.outputIndex = some n ∧ ToolKey.output n = k := by simpa using hk
        rw [keyForEvent_output hn, some.injEq] at hkey
        obtain ⟨j, hj, -⟩ := h.lead_of hfunctional (hown (.output n) (by simp [eventNames, hn])) hk'
        rw [h.output n k' hk', hkey, hfound] at hj
        cases hj
      · obtain ⟨y, hy, rfl⟩ : ∃ y, responseStreamEventItemID event = some y ∧ ToolKey.item y = k := by
          simpa using hk
        obtain ⟨j, hj, horder⟩ := h.lead_of hfunctional (hown (.item y) (by simp [eventNames, hy])) hk'
        refine ⟨j, ?_, horder⟩
        have hlookup : b.itemIDToKey.lookup y = some k' := hk'
        simp [aliasedTool, hy, hlookup, hj]
    obtain ⟨j, hj, horder⟩ := halias
    refine ⟨j, _, ?_, horder, h.alias hfound horder hownkey, AList.lookup_insert _, rfl, ?_, ?_⟩
    · simp only [hj]
    · funext k
      cases k <;> rfl
    · funext k
      cases k <;> rfl

end

end find

/-! ### Tools that are opened -/

section opened

variable {ι : Type} {own : ToolKey → ι → Prop}

/-- From `b` to `b'` the call `x` is at `p` with what was kept for it, known by `names`; nothing else changed. -/
structure Opened (own : ToolKey → ι → Prop) (names : List ToolKey) (order : List ι) (x : ι) (p : ℕ)
    (b b' : ToolBook) : Prop where
  maps : Maps own order b'
  place : order[p]? = some x
  tools : ∀ q, q ≠ p → b'.tools q = b.tools q
  gone : ∀ k, own k x → b'.pending k = none
  keeps : ∀ k, ¬ own k x → b'.pending k = b.pending k
  names : ∀ k ∈ names, b'.leads k ≠ none
  leads : ∀ k, b.leads k ≠ none → b'.leads k ≠ none

variable {names : List ToolKey} {order : List ι} {x : ι} {p : ℕ} {b b₁ b' : ToolBook} {key : ToolKey}

theorem Opened.modify (h : Opened own names order x p b b')
    (f : ResponsesStreamTool → ResponsesStreamTool) : Opened own names order x p b (b'.modify p f) := by
  refine ⟨h.maps.modify p f, h.place, fun q hq => ?_, ?_, ?_, ?_, ?_⟩
  · rw [tools_modify_of_ne b' f hq]
    exact h.tools q hq
  · rw [pending_modify]
    exact h.gone
  · rw [pending_modify]
    exact h.keeps
  · rw [leads_modify]
    exact h.names
  · rw [leads_modify]
    exact h.leads

theorem opened_of_links (hmaps : Maps own order b₁) (hplace : order[p]? = some x)
    (hkey : b₁.toolByKey.lookup key = some p) (hlinks : Links names key p b₁ b')
    (hown : ∀ k ∈ names, own k x) (houtput : ∀ n, .output n ∈ names → key = .output n)
    (htools : ∀ q, q ≠ p → b₁.tools q = b.tools q) (hleads : b₁.leads = b.leads)
    (hpending : b₁.pending = b.pending) (hdrained : ∀ k, own k x → k ∉ names → b.pending k = none) :
    Opened own names order x p b b' := by
  refine ⟨hmaps.link hlinks hkey hplace hown houtput, hplace,
    fun q hq => (hlinks.others q hq).trans (htools q hq), fun k hk => ?_, fun k hk => ?_,
    fun k hk => ?_, fun k hk => ?_⟩
  · rw [hlinks.pending, hpending]
    by_cases hmem : k ∈ names
    · rw [if_pos hmem]
    · rw [if_neg hmem]
      exact hdrained k hk hmem
  · rw [hlinks.pending, hpending, if_neg fun hmem => hk (hown k hmem)]
  · rw [hlinks.leads, if_pos hk]
    simp
  · rw [hlinks.leads, hleads]
    split_ifs with hmem
    · simp
    · exact hk

end opened

/-! ### The book and the calls -/

section telling

variable {ι : Type} {own : ToolKey → ι → Prop}

/-- The fragments have told `args` and `first` of every call with a tool; of the others the text `dl`
is kept, under the names in `wt`. -/
structure Telling (own : ToolKey → ι → Prop) (args : ι → String) (first : ι → Option String)
    (dl : ι → String) (wt : ι → List ToolKey) (fs : List ToolCallResponse) (order : List ι)
    (b : ToolBook) : Prop where
  maps : Maps own order b
  created : created 0 fs = some order.length
  told : ∀ j x, order[j]? = some x → Told (args x) (first x) fs j (b.tools j)
  untold : ∀ x, x ∉ order → args x = dl x ∧ first x = none
  kept : ∀ k s, b.pending k = some s →
    s ≠ "" ∧ ∃ x, x ∉ order ∧ own k x ∧ s = dl x ∧ ∀ k' ∈ wt x, k' = k
  waits : ∀ x, x ∉ order → dl x ≠ "" → ∃ k, own k x ∧ b.pending k = some (dl x)

variable {args args' : ι → String} {first first' : ι → Option String} {dl dl' : ι → String}
  {wt wt' : ι → List ToolKey} {fs : List ToolCallResponse} {order order' : List ι} {b b' : ToolBook}
  {x : ι} {p : ℕ}

theorem Telling.keptText (h : Telling own args first dl wt fs order b) : b.Kept := by
  intro k hk
  exact (h.kept k "" hk).1 rfl

theorem order_unique (h : Maps own order b) {j j' : ℕ} (hj : order[j]? = some x)
    (hj' : order[j']? = some x) : j = j' := by
  obtain ⟨hlt, hget⟩ := List.getElem?_eq_some_iff.mp hj
  obtain ⟨hlt', hget'⟩ := List.getElem?_eq_some_iff.mp hj'
  exact (List.Nodup.getElem_inj_iff h.nodup).mp (hget.trans hget'.symm)

section

variable {names : List ToolKey} (hopened : Opened own names order' x p b b')
  (hgrow : order' = order ∨ order' = order ++ [x] ∧ (b'.tools p).sent = false)

include hopened hgrow

theorem Opened.old_place {y : ι} {j : ℕ} (hj : order'[j]? = some y) (hjp : j ≠ p) : order[j]? = some y := by
  rcases hgrow with rfl | ⟨rfl, -⟩
  · exact hj
  · have hlt := (List.getElem?_eq_some_iff.mp hj).1
    have hlast : p = order.length := order_unique hopened.maps hopened.place (by simp)
    rw [List.length_append] at hlt
    rwa [getElem?_append_left (by simp at hlt; omega)] at hj

theorem Opened.notMem {y : ι} : y ∉ order' ↔ y ≠ x ∧ y ∉ order := by
  have hx : x ∈ order' := mem_of_getElem? hopened.place
  rcases hgrow with rfl | ⟨rfl, -⟩
  · exact ⟨fun hy => ⟨fun hyx => hy (hyx ▸ hx), hy⟩, And.right⟩
  · rw [mem_append, mem_singleton, not_or, and_comm]

/-- A new tool tells in one fragment, with the next index; another one tells in at most one, with its own. -/
theorem Opened.created {gs : List ToolCallResponse} (hcreated : Relay.created 0 fs = some order.length)
    (hout : gs = [] ∧ (b'.tools p).sent = true ∨ ∃ f, gs = [f] ∧ f.index = some (p : ℤ)) :
    Relay.created 0 (fs ++ gs) = some order'.length := by
  rw [created_append, hcreated, bind_some]
  have hp : p < order'.length := (List.getElem?_eq_some_iff.mp hopened.place).1
  rcases hgrow with rfl | ⟨rfl, hunsent⟩
  · rcases hout with ⟨rfl, -⟩ | ⟨f, rfl, hfindex⟩
    · rfl
    · have hne : (p : ℤ) ≠ (order'.length : ℤ) := by omega
      rw [created_cons, hfindex, if_neg (by simpa using hne), if_pos ⟨p, hp, rfl⟩]
      rfl
  · have hlast : p = order.length := order_unique hopened.maps hopened.place (by simp)
    rcases hout with ⟨-, hsent⟩ | ⟨f, rfl, hfindex⟩
    · rw [hunsent] at hsent
      cases hsent
    · rw [created_cons, hfindex, if_pos (by rw [hlast]), List.length_append]
      rfl

end

section

variable (h : Telling own args first dl wt fs order b) (hfunctional : ∀ k x y, own k x → own k y → x = y)
  (hother : ∀ y, y ≠ x → args' y = args y ∧ first' y = first y ∧ dl' y = dl y ∧ wt' y = wt y)

include h hfunctional

section

include hother

/-- **Touch rule**: one tool tells what it owes; the rest of the book is as before. -/
theorem Telling.touch {names : List ToolKey} (hopened : Opened own names order' x p b b')
    (hgrow : order' = order ∨ order' = order ++ [x] ∧ (b'.tools p).sent = false) {a r explicit : String}
    {before : Option String} (howes : Owes a r before (first' x) fs p (b'.tools p)) (hargs : args' x = a ++ r)
    (hexplicit : explicit = "" ∨ explicit = r) :
    Telling own args' first' dl' wt' (fs ++ (toolDelta p explicit b').1) order' (toolDelta p explicit b').2 := by
  obtain ⟨htold, hsame, hout⟩ := toolDelta_told howes hexplicit
  obtain ⟨hnext, hkeys, hleads, hpending⟩ := toolDelta_maps p explicit b'
  have hindex : ∀ g ∈ (toolDelta p explicit b').1, g.index = some (p : ℤ) := by
    intro g hg
    rcases hout with ⟨hnil, -⟩ | ⟨f, hf, hfindex⟩
    · rw [hnil] at hg
      cases hg
    · rw [hf, mem_singleton] at hg
      rw [hg, hfindex]
  refine ⟨hopened.maps.congr hnext hkeys hleads, hopened.created hgrow h.created hout, fun j y hj => ?_,
    fun y hy => ?_, fun k s hk => ?_, fun y hy hdl => ?_⟩
  · by_cases hjp : j = p
    · subst hjp
      rw [hopened.place] at hj
      cases hj
      rw [hargs]
      exact htold
    · have hyx : y ≠ x := fun hyx => hjp (order_unique hopened.maps (hyx ▸ hj) hopened.place)
      obtain ⟨hargs', hfirst', -, -⟩ := hother y hyx
      rw [hargs', hfirst', hsame j hjp, hopened.tools j hjp]
      exact (h.told j y (hopened.old_place hgrow hj hjp)).frame hindex hjp
  · obtain ⟨hyx, hyo⟩ := (hopened.notMem hgrow).mp hy
    obtain ⟨hargs', hfirst', hdl', -⟩ := hother y hyx
    rw [hargs', hfirst', hdl']
    exact h.untold y hyo
  · rw [hpending] at hk
    have hnot : ¬ own k x := by
      intro hown
      rw [hopened.gone k hown] at hk
      cases hk
    rw [hopened.keeps k hnot] at hk
    obtain ⟨hs, y, hyo, hown, hdl, hwt⟩ := h.kept k s hk
    have hyx : y ≠ x := fun hyx => hnot (hyx ▸ hown)
    obtain ⟨-, -, hdl', hwt'⟩ := hother y hyx
    exact ⟨hs, y, (hopened.notMem hgrow).mpr ⟨hyx, hyo⟩, hown, by rw [hdl']; exact hdl, by rw [hwt']; exact hwt⟩
  · obtain ⟨hyx, hyo⟩ := (hopened.notMem hgrow).mp hy
    obtain ⟨-, -, hdl', -⟩ := hother y hyx
    rw [hdl'] at hdl ⊢
    obtain ⟨k, hown, hk⟩ := h.waits y hyo hdl
    refine ⟨k, hown, ?_⟩
    rw [hpending, hopened.keeps k fun hown' => hyx (hfunctional k y x hown hown')]
    exact hk

/-- **Wait rule**: what comes of a call without a tool is kept under one name. -/
theorem Telling.wait (hx : x ∉ order) (hnext : b'.nextToolIndex = b.nextToolIndex)
    (hkeys : b'.toolByKey = b.toolByKey) (hleads : b'.leads = b.leads) (htools : b'.tools = b.tools) {k₀ : ToolKey}
    (hown : own k₀ x) (hpending : ∀ k, b'.pending k = if k = k₀ then some (dl' x) else b.pending k)
    (hdl : dl' x ≠ "") (hkept : ∀ k s, own k x → b.pending k = some s → k = k₀) (hwt : ∀ k ∈ wt' x, k = k₀)
    (huntold : args' x = dl' x ∧ first' x = none) : Telling own args' first' dl' wt' fs order b' := by
  refine ⟨h.maps.congr hnext hkeys hleads, h.created, fun j y hj => ?_, fun y hy => ?_, fun k s hk => ?_,
    fun y hy hdly => ?_⟩
  · obtain ⟨hargs', hfirst', -, -⟩ := hother y fun hyx => hx (hyx ▸ mem_of_getElem? hj)
    rw [htools, hargs', hfirst']
    exact h.told j y hj
  · by_cases hyx : y = x
    · rw [hyx]
      exact huntold
    · obtain ⟨hargs', hfirst', hdl', -⟩ := hother y hyx
      rw [hargs', hfirst', hdl']
      exact h.untold y hy
  · rw [hpending] at hk
    split_ifs at hk with hkk
    · cases hk
      exact ⟨hdl, x, hx, hkk ▸ hown, rfl, fun k' hk' => (hwt k' hk').trans hkk.symm⟩
    · obtain ⟨hs, y, hyo, howny, hdly, hwty⟩ := h.kept k s hk
      obtain ⟨-, -, hdl', hwt'⟩ := hother y fun hyx => hkk (hkept k s (hyx ▸ howny) hk)
      exact ⟨hs, y, hyo, howny, by rw [hdl']; exact hdly, by rw [hwt']; exact hwty⟩
  · by_cases hyx : y = x
    · subst hyx
      exact ⟨k₀, hown, by rw [hpending, if_pos rfl]⟩
    · obtain ⟨-, -, hdl', -⟩ := hother y hyx
      rw [hdl'] at hdly ⊢
      obtain ⟨k, howny, hk⟩ := h.waits y hy hdly
      have hkk : k ≠ k₀ := fun hkk => hyx (hfunctional k y x howny (hkk ▸ hown))
      exact ⟨k, howny, by rw [hpending, if_neg hkk]; exact hk⟩

end

theorem Telling.pending_known (hx : x ∈ order) {k : ToolKey} (hown : own k x) : b.pending k = none := by
  by_contra hsome
  obtain ⟨s, hs⟩ := ne_none_iff_exists'.mp hsome
  obtain ⟨-, y, hyo, howny, -⟩ := h.kept k s hs
  exact hyo (hfunctional k x y hown howny ▸ hx)

/-- A call with a tool needs no opening. -/
theorem Telling.opened (hplace : order[p]? = some x) : Opened own [] order x p b b :=
  ⟨h.maps, hplace, fun _ _ => rfl, fun _ hown => h.pending_known hfunctional (mem_of_getElem? hplace) hown,
    fun _ _ => rfl, nofun, fun _ hk => hk⟩

theorem Telling.drained (hx : x ∉ order) {names : List ToolKey}
    (hnodup : names.Nodup) (hown : ∀ k ∈ names, own k x) (hwt : ∀ k ∈ wt x, k ∈ names)
    (hwaiting : dl x ≠ "" → wt x ≠ []) : join (names.map fun k => (b.pending k).getD "") = dl x ∧
      ∀ k, own k x → k ∉ names → b.pending k = none := by
  -- whatever is kept under a name of the call is its text, under the name it waits under
  have hkept : ∀ {k s}, own k x → b.pending k = some s → s = dl x ∧ s ≠ "" ∧ ∀ k' ∈ wt x, k' = k := by
    intro k s hk hs
    obtain ⟨hne, y, -, howny, hdl, hwty⟩ := h.kept k s hs
    obtain rfl := hfunctional k x y hk howny
    exact ⟨hdl, hne, hwty⟩
  by_cases hdl : dl x = ""
  · have hnone : ∀ k, own k x → b.pending k = none := by
      intro k hk
      by_contra hsome
      obtain ⟨s, hs⟩ := ne_none_iff_exists'.mp hsome
      obtain ⟨hsdl, hne, -⟩ := hkept hk hs
      exact hne (hsdl.trans hdl)
    refine ⟨?_, fun k hk _ => hnone k hk⟩
    rw [hdl, GoText.join_map_empty fun k hk => by rw [hnone k (hown k hk)]; rfl]
  · obtain ⟨k, hk, hpending⟩ := h.waits x hx hdl
    obtain ⟨k', hk'⟩ := exists_mem_of_ne_nil _ (hwaiting hdl)
    have hsame : ∀ {c s}, own c x → b.pending c = some s → c = k' := fun hc hs =>
      ((hkept hc hs).2.2 k' hk').symm
    have hkk' : k = k' := hsame hk hpending
    have hmem : k ∈ names := hkk' ▸ hwt k' hk'
    have hothers : ∀ c, own c x → c ≠ k → b.pending c = none := by
      intro c hc hne
      by_contra hsome
      obtain ⟨s, hs⟩ := ne_none_iff_exists'.mp hsome
      exact hne ((hsame hc hs).trans hkk'.symm)
    refine ⟨?_, fun c hc hnot => hothers c hc fun hck => hnot (hck ▸ hmem)⟩
    rw [GoText.join_map_single hnodup hmem fun c hc hne => by rw [hothers c (hown c hc) hne]; rfl, hpending]
    rfl

end

end telling

/-! ### Calls that become known -/

section opened

variable {Usage ι : Type} {own : ToolKey → ι → Prop}

variable (event : ResponsesStreamResponse Usage)

def linkNames : List ToolKey :=
  (event.outputIndex.map ToolKey.output).toList ++
    ((responseStreamEventItemID event).map ToolKey.item).toList

theorem linkNames_nodup (callID : Option String) : (linkNames event ++ (callID.map ToolKey.call).toList).Nodup := by
  unfold linkNames
  cases event.outputIndex <;> cases responseStreamEventItemID event <;> cases callID <;> simp

theorem output_mem_linkNames {event : ResponsesStreamResponse Usage} {n : ℤ}
    (hn : .output n ∈ linkNames event) : event.outputIndex = some n := by
  simpa [linkNames] using hn

theorem linkNames_owned {event : ResponsesStreamResponse Usage} {x : ι}
    (hown : ∀ k ∈ eventNames event, own k x) {k : ToolKey} (hk : k ∈ linkNames event) : own k x :=
  hown k (mem_append_left _ (mem_append_left _ hk))

theorem links_item {key : ToolKey} {p : ℕ} {b : ToolBook}
    (hkept : b.Kept) : Links (linkNames event) key p b (linkItemID (responseStreamEventItemID event) key p
        (linkOutputIndex event.outputIndex key p b)) := by
  have hindex := @links_outputIndex key p b event.outputIndex hkept
  refine hindex.trans (links_itemID _ (hindex.kept hkept)) ?_
  cases event.outputIndex <;> cases responseStreamEventItemID event <;> simp

theorem links_call (item : ResponsesOutput) {key : ToolKey}
    {p : ℕ} {b : ToolBook} (hkept : b.Kept) :
    Links (linkNames event ++ ((nonBlank item.callId).map ToolKey.call).toList) key p b
      (linkCallID item key p (linkItemID (responseStreamEventItemID event) key p
        (linkOutputIndex event.outputIndex key p b))) := by
  refine (links_item event hkept).trans (links_callID item) ?_
  unfold linkNames
  cases event.outputIndex <;> cases responseStreamEventItemID event <;> cases nonBlank item.callId <;>
    simp

variable {names : List ToolKey} {order : List ι} {x : ι} {b b' : ToolBook} {key : ToolKey}

variable {args : ι → String} {first : ι → Option String} {dl : ι → String} {wt : ι → List ToolKey}
  {fs : List ToolCallResponse}

theorem Telling.owes_fresh (h : Telling own args first dl wt fs order b) {r : String}
    {first' : Option String} {tool : ResponsesStreamTool} (hindex : tool.index = order.length)
    (hargs : tool.arguments = r) (hsentAt : tool.argsSentAt = 0) (hnameSent : tool.nameSent = false)
    (hfirst : first' = if tool.name = "" then none else some tool.name) :
    Owes "" r none first' fs order.length tool := by
  have hnone := fragmentsAt_of_created h.created (le_refl order.length)
  refine ⟨hindex, by rw [hargs, empty_append], by rw [hsentAt]; rfl, hnameSent, hfirst, ?_, ?_⟩
  · simp [argumentsAt, hnone]
  · simp [namesAt, hnone]

theorem Telling.open_fresh (h : Telling own args first dl wt fs order b)
    (hfunctional : ∀ k x y, own k x → own k y → x = y) (hx : x ∉ order) (callID : String)
    (hlinks : Links names key order.length (b.newTool key callID).2 b') (hkey : own key x)
    (hnodup : names.Nodup) (hown : ∀ k ∈ names, own k x)
    (houtput : ∀ n, .output n ∈ names → key = .output n) (hwt : ∀ k ∈ wt x, k ∈ names)
    (hwaiting : dl x ≠ "" → wt x ≠ []) : Opened own names (order ++ [x]) x order.length b b' ∧
      (b'.tools order.length).arguments = dl x ∧ (b'.tools order.length).index = order.length ∧
      (b'.tools order.length).sent = false ∧ (b'.tools order.length).nameSent = false ∧
      (b'.tools order.length).argsSentAt = 0 ∧ (b'.tools order.length).name = "" := by
  obtain ⟨hmaps, hlookup, -⟩ := h.maps.newTool callID (h.maps.key_none hfunctional hkey hx) hx hkey
  obtain ⟨hjoin, hdrained⟩ := h.drained hfunctional hx hnodup hown hwt hwaiting
  have hnew : (b.newTool key callID).2.tools order.length =
      { key, callID, index := order.length } := by
    rw [← h.maps.count]
    exact update_self ..
  have htools : ∀ q, q ≠ order.length → (b.newTool key callID).2.tools q = b.tools q := by
    intro q hq
    rw [← h.maps.count] at hq
    exact update_of_ne hq _ _
  have hopened := opened_of_links (b := b) hmaps (by simp) hlookup hlinks hown houtput htools
    (leads_newTool ..) (pending_newTool ..) hdrained
  have hprogress := hlinks.progress
  rw [hnew] at hprogress
  refine ⟨hopened, ?_, hprogress.index, hprogress.sent, hprogress.nameSent, hprogress.argsSentAt, hprogress.name⟩
  rw [hlinks.arguments, hnew, pending_newTool, hjoin, empty_append]

end opened

end WynthApi.Relay
