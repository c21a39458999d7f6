import WynthApi.Relay.ResponsesFromChat

/-!
# What the deltas of one call hold

`heard` follows the fragments of one call: the name and the arguments put together, whether the call was
announced and what the deltas have told of its arguments.  A call is told as a whole exactly if its name
was announced while its arguments streamed, and not as a tool search before it became a function
(`told_eq_arguments_iff`).
-/

namespace WynthApi.Relay

open String

/-! ### Names -/

section names

variable (restore : Option ResponsesToolRestoreMetadata)

def toolType (name : String) : ResponsesOutputType :=
  match restore with
  | none => .functionCall
  | some restore =>
    if restore.toolSearchDeclared ∧ name = "tool_search" then .toolSearchCall else .functionCall

variable {restore}

theorem toolOutput_type (unmarshal : String → Option RawMessage) (tool : ChatToResponsesStreamTool)
    (status : String) : (toolOutput unmarshal restore tool status).type = toolType restore tool.name := by
  unfold toolOutput toolType
  cases restore with
  | none => rfl
  | some restore =>
    simp only
    split_ifs with h
    · rfl
    · cases restore.reverseToolNames.lookup tool.name <;> rfl

theorem toolOutput_arguments (unmarshal : String → Option RawMessage) {tool : ChatToResponsesStreamTool}
    (status : String) (h : toolType restore tool.name = .functionCall) :
    (toolOutput unmarshal restore tool status).argumentsString = tool.arguments := by
  unfold toolType at h
  unfold toolOutput
  cases restore with
  | none => rfl
  | some restore =>
    simp only at h ⊢
    split_ifs at h with hsearch
    rw [if_neg hsearch]
    cases restore.reverseToolNames.lookup tool.name <;> rfl

variable {name : String}

theorem toolType_ne (h : toolType restore name ≠ .functionCall) :
    name = "tool_search" ∧ ∃ m, restore = some m ∧ m.toolSearchDeclared = true := by
  unfold toolType at h
  cases restore with
  | none => exact absurd rfl h
  | some m =>
    simp only at h
    split_ifs at h with hsearch
    · exact ⟨hsearch.2, m, rfl, hsearch.1⟩
    · exact absurd rfl h

theorem growsInto_iff {declared : String} :
    growsInto name declared = true ↔ declared ≠ name ∧ name.toList <+: declared.toList := by
  simp [growsInto, GoText.startsWith]

/-- A name that can still become the name of the tool search is not announced. -/
theorem announces_beginning (hdeclared : ∃ m, restore = some m ∧ m.toolSearchDeclared = true)
    (hbegins : name.toList <+: "tool_search".toList) (hne : name ≠ "tool_search") : announces restore name = false := by
  obtain ⟨m, rfl, hm⟩ := hdeclared
  have hgrows : growsInto name "tool_search" = true := growsInto_iff.mpr ⟨hne.symm, hbegins⟩
  simp [announces, hm, hgrows]

end names

/-! ### The fragments of a call -/

section fragments

variable (restore : Option ResponsesToolRestoreMetadata)

structure CallProgress where
  name : String := ""
  arguments : String := ""
  announced : Bool := false
  /-- what the deltas have told of the arguments -/
  told : String := ""
  deriving DecidableEq, Repr

variable (p : CallProgress)

/-- What was kept back is told when the call is announced. -/
def late (name : String) : String :=
  if p.announced = false ∧ announces restore name = true ∧ toolType restore name = .functionCall then
    p.arguments else ""

/-- Arguments of an announced function are told at once. -/
def prompt (name arguments : String) : String :=
  if (p.announced || announces restore name) = true ∧ toolType restore name = .functionCall then
    arguments else ""

variable (toolCall : ToolCallResponse)

def hear : CallProgress where
  name := p.name ++ toolCall.function.name
  arguments := p.arguments ++ toolCall.function.arguments
  announced := p.announced || announces restore (p.name ++ toolCall.function.name)
  told := p.told ++ late restore p (p.name ++ toolCall.function.name) ++
    prompt restore p (p.name ++ toolCall.function.name) toolCall.function.arguments

variable (fragments : List ToolCallResponse)

def heard : CallProgress := fragments.foldl (hear restore) {}

def nameOf : String :=
  String.join (fragments.map fun toolCall => toolCall.function.name)

def argumentsOfCall : String :=
  String.join (fragments.map fun toolCall => toolCall.function.arguments)

/-- No argument came up to the last fragment at which the call was announced as a tool search. -/
def Unsearched : Prop :=
  ∀ p ∈ fragments.inits, announces restore (nameOf p) = true → toolType restore (nameOf p) ≠ .functionCall →
    argumentsOfCall p = ""
  deriving Decidable

/-- One of the fragments announces the call, and nothing is lost by a tool search. -/
def Announced : Prop :=
  (∃ p ∈ fragments.inits, p ≠ [] ∧ announces restore (nameOf p) = true) ∧ Unsearched restore fragments
  deriving Decidable

variable {restore}

theorem heard_concat (fragments : List ToolCallResponse) (toolCall : ToolCallResponse) :
    heard restore (fragments ++ [toolCall]) = hear restore (heard restore fragments) toolCall := by
  simp [heard]

theorem nameOf_append (fragments fragments' : List ToolCallResponse) :
    nameOf (fragments ++ fragments') = nameOf fragments ++ nameOf fragments' := by
  simp [nameOf, join_append]

theorem argumentsOfCall_append (fragments fragments' : List ToolCallResponse) :
    argumentsOfCall (fragments ++ fragments') = argumentsOfCall fragments ++ argumentsOfCall fragments' := by
  simp [argumentsOfCall, join_append]

theorem nameOf_singleton : nameOf [toolCall] = toolCall.function.name := by simp [nameOf, String.join]

theorem argumentsOfCall_singleton : argumentsOfCall [toolCall] = toolCall.function.arguments := by
  simp [argumentsOfCall, String.join]

theorem heard_name (fragments : List ToolCallResponse) : (heard restore fragments).name = nameOf fragments := by
  induction fragments using List.reverseRecOn with
  | nil => rfl
  | append_singleton fragments toolCall ih =>
    rw [heard_concat, nameOf_append, nameOf_singleton, ← ih]
    rfl

theorem heard_arguments (fragments : List ToolCallResponse) :
    (heard restore fragments).arguments = argumentsOfCall fragments := by
  induction fragments using List.reverseRecOn with
  | nil => rfl
  | append_singleton fragments toolCall ih =>
    rw [heard_concat, argumentsOfCall_append, argumentsOfCall_singleton, ← ih]
    rfl

variable {fragments p : List ToolCallResponse}

theorem nameOf_begins (h : p ∈ fragments.inits) : (nameOf p).toList <+: (nameOf fragments).toList := by
  obtain ⟨q, rfl⟩ := (List.mem_inits _ _).mp h
  rw [nameOf_append, toList_append]
  exact List.prefix_append _ _

theorem argumentsOfCall_inits (h : p ∈ fragments.inits) (hempty : argumentsOfCall fragments = "") :
    argumentsOfCall p = "" := by
  obtain ⟨q, rfl⟩ := (List.mem_inits _ _).mp h
  rw [argumentsOfCall_append] at hempty
  exact (append_eq_empty_iff.mp hempty).1

variable {toolCall : ToolCallResponse}

theorem mem_inits_concat : p ∈ (fragments ++ [toolCall]).inits ↔ p ∈ fragments.inits ∨ p = fragments ++ [toolCall] := by
  rw [List.mem_inits, List.mem_inits, List.prefix_concat_iff, or_comm]

/-- A call is announced by the first fragment that completes an announced name. -/
theorem heard_announced (fragments : List ToolCallResponse) : (heard restore fragments).announced = true ↔
      ∃ p ∈ fragments.inits, p ≠ [] ∧ announces restore (nameOf p) = true := by
  induction fragments using List.reverseRecOn with
  | nil => simp [heard]
  | append_singleton fragments toolCall ih =>
    have hannounced : (heard restore (fragments ++ [toolCall])).announced =
        ((heard restore fragments).announced || announces restore (nameOf (fragments ++ [toolCall]))) := by
      rw [heard_concat, nameOf_append, nameOf_singleton, ← heard_name]
      rfl
    rw [hannounced, Bool.or_eq_true, ih]
    constructor
    · rintro (⟨p, hp, hne, hann⟩ | hann)
      · exact ⟨p, mem_inits_concat.mpr (.inl hp), hne, hann⟩
      · exact ⟨_, mem_inits_concat.mpr (.inr rfl), by simp, hann⟩
    · rintro ⟨p, hp, hne, hann⟩
      rcases mem_inits_concat.mp hp with hp | rfl
      · exact .inl ⟨p, hp, hne, hann⟩
      · exact .inr hann

theorem unsearched_concat : Unsearched restore (fragments ++ [toolCall]) ↔ Unsearched restore fragments ∧
      (announces restore (nameOf (fragments ++ [toolCall])) = true →
        toolType restore (nameOf (fragments ++ [toolCall])) ≠ .functionCall →
        argumentsOfCall (fragments ++ [toolCall]) = "") := by
  unfold Unsearched
  constructor
  · intro h
    exact ⟨fun p hp => h p (mem_inits_concat.mpr (.inl hp)), h _ (mem_inits_concat.mpr (.inr rfl))⟩
  · rintro ⟨h, hlast⟩ p hp
    rcases mem_inits_concat.mp hp with hp | rfl
    · exact h p hp
    · exact hlast

theorem unsearched_of_unannounced (h : (heard restore fragments).announced = false) : Unsearched restore fragments := by
  intro p hp hann htype
  by_cases hnil : p = []
  · rw [hnil]
    rfl
  · have hannounced := (@heard_announced restore fragments).mpr ⟨p, hp, hnil, hann⟩
    rw [h] at hannounced
    cases hannounced

/-- **Told**: what is missing in the deltas of an announced call came before the last fragment at which it
was announced as a tool search; nothing is told while it is one. -/
structure ToldUpTo (restore : Option ResponsesToolRestoreMetadata) (fragments : List ToolCallResponse) :
    Prop where
  silent : (heard restore fragments).announced = false → (heard restore fragments).told = ""
  searching : toolType restore (nameOf fragments) ≠ .functionCall → (heard restore fragments).told = ""
  missing : (heard restore fragments).announced = true → ∃ lost,
    argumentsOfCall fragments = lost ++ (heard restore fragments).told ∧
      (lost = "" ↔ Unsearched restore fragments)

theorem toldUpTo (fragments : List ToolCallResponse) : ToldUpTo restore fragments := by
  induction fragments using List.reverseRecOn with
  | nil => exact ⟨fun _ => rfl, fun _ => rfl, fun h => by cases h⟩
  | append_singleton fragments toolCall ih =>
    have hname : (heard restore fragments).name ++ toolCall.function.name = nameOf (fragments ++ [toolCall]) := by
      rw [nameOf_append, nameOf_singleton, heard_name]
    have hannounced : (heard restore (fragments ++ [toolCall])).announced =
        ((heard restore fragments).announced || announces restore (nameOf (fragments ++ [toolCall]))) := by
      rw [heard_concat, ← hname]
      rfl
    have htold : (heard restore (fragments ++ [toolCall])).told = (heard restore fragments).told ++
        late restore (heard restore fragments) (nameOf (fragments ++ [toolCall])) ++
        prompt restore (heard restore fragments) (nameOf (fragments ++ [toolCall])) toolCall.function.arguments := by
      rw [heard_concat, ← hname]
      rfl
    have harguments : argumentsOfCall (fragments ++ [toolCall]) =
        argumentsOfCall fragments ++ toolCall.function.arguments := by
      rw [argumentsOfCall_append, argumentsOfCall_singleton]
    unfold late prompt at htold
    by_cases htype : toolType restore (nameOf (fragments ++ [toolCall])) = .functionCall
    · simp only [htype, and_true] at htold
      refine ⟨fun hnot => ?_, fun hsearch => absurd htype hsearch, fun hann => ?_⟩
      · rw [hannounced, Bool.or_eq_false_iff] at hnot
        rw [htold, ih.silent hnot.1, hnot.1, hnot.2]
        rfl
      · have hsame : Unsearched restore (fragments ++ [toolCall]) ↔ Unsearched restore fragments := by
          rw [unsearched_concat]
          exact and_iff_left fun _ hsearch => absurd htype hsearch
        rw [hsame, harguments, htold]
        cases hbefore : (heard restore fragments).announced with
        | true =>
          obtain ⟨lost, hlost, hiff⟩ := ih.missing hbefore
          refine ⟨lost, ?_, hiff⟩
          rw [hlost]
          simp [append_assoc]
        | false =>
          rw [hannounced, hbefore, Bool.false_or] at hann
          refine ⟨"", ?_, iff_of_true rfl (unsearched_of_unannounced hbefore)⟩
          rw [ih.silent hbefore, heard_arguments]
          simp [hann]
    · -- The name is the one of the tool search: had the call been announced, then under this very name.
      obtain ⟨hsearch, hdeclared⟩ := toolType_ne htype
      have hsame : ∀ p ∈ (fragments ++ [toolCall]).inits, announces restore (nameOf p) = true →
          nameOf p = "tool_search" := by
        intro p hp hann
        by_contra hne
        have hbegins := nameOf_begins hp
        rw [hsearch] at hbegins
        rw [announces_beginning hdeclared hbegins hne] at hann
        cases hann
      have hbefore : (heard restore fragments).told = "" := by
        cases hann : (heard restore fragments).announced with
        | false => exact ih.silent hann
        | true =>
          obtain ⟨p, hp, -, hannounces⟩ := heard_announced fragments |>.mp hann
          have hp' := hsame p (mem_inits_concat.mpr (.inl hp)) hannounces
          have hlong := nameOf_begins hp
          have hshort : (nameOf fragments).toList <+: (nameOf (fragments ++ [toolCall])).toList :=
            nameOf_begins (mem_inits_concat.mpr (.inl ((List.mem_inits _ _).mpr List.prefix_rfl)))
          rw [hsearch] at hshort
          rw [hp'] at hlong
          have hname : nameOf fragments = "tool_search" :=
            toList_inj.mp (hshort.eq_of_length_le hlong.length_le)
          apply ih.searching
          rw [hname, ← hsearch]
          exact htype
      simp only [htype, and_false, if_false, append_empty] at htold
      rw [hbefore] at htold
      refine ⟨fun _ => htold, fun _ => htold, fun hann => ⟨_, by rw [htold, append_empty], ?_⟩⟩
      constructor
      · intro hempty p hp _ _
        exact argumentsOfCall_inits hp hempty
      · intro hunsearched
        obtain ⟨p, hp, -, hannounces⟩ := heard_announced _ |>.mp hann
        have hp' := hsame p hp hannounces
        refine (unsearched_concat.mp hunsearched).2 ?_ htype
        rw [hsearch, ← hp']
        exact hannounces

/-- **Completeness of the deltas** of a function call. -/
theorem told_eq_arguments_iff : (heard restore fragments).told = argumentsOfCall fragments ↔
      argumentsOfCall fragments = "" ∨ Announced restore fragments := by
  have h := @toldUpTo restore fragments
  unfold Announced
  rw [← heard_announced]
  cases hann : (heard restore fragments).announced with
  | false =>
    rw [h.silent hann, eq_comm]
    simp
  | true =>
    obtain ⟨lost, hlost, hiff⟩ := h.missing hann
    rw [← hiff, hlost]
    constructor
    · intro htold
      right
      refine ⟨rfl, ?_⟩
      have hlength := congrArg String.length htold
      rw [length_append] at hlength
      exact length_eq_zero_iff.mp (by omega)
    · rintro (hempty | ⟨-, hempty⟩)
      · rw [hempty, (append_eq_empty_iff.mp hempty).2]
      · rw [hempty, empty_append]

end fragments

end WynthApi.Relay
