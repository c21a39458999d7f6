import WynthApi.Routing.Channels

/-!
# The relay loop over the channels of a group (controller/relay.go)

The distributor hands over the first channel: one forced for the token, one the request has affinity to, or one from
the selector.  After a failed attempt the loop asks the selector for another, with the ids in the request's context
left out, and ends when it has none (`failover_exhaustive`).

An `Attempt` is what happens outside: the query and the random values of a selection, how the attempt ends, whether a
response has been sent by then and whether the client is gone.
-/

namespace WynthApi.Routing

open WynthApi.Price List GoText

/-! ### The request context -/

structure Context where
  useChannel : List String
  autoGroup : String
  autoGroupIndex : Option ℕ
  deriving DecidableEq

def addUsedChannel (ctx : Context) (channelId : Int) : Context :=
  { ctx with useChannel := ctx.useChannel ++ [GoText.itoa channelId] }

def attemptedChannelIDSetFromContext (ctx : Context) : List Int :=
  (ctx.useChannel.map fun rawID => GoText.atoi (GoText.trimSpace rawID)).filter fun id => 0 < id

structure Query where
  draw : Draw
  fault : Option String

/-- What a selection is asked for; `autoGroups` are those of the user, `autoEnabled` says that the
setting lists any. -/
structure RetryParam where
  (tokenGroup modelName requestPath : String)
  autoEnabled : Bool
  autoGroups : List String

/-- The loop over the automatic groups from an index on. -/
def selectAuto (reg : Registry) (param : RetryParam) (attempted : List Int) (query : ℕ → Query) :
    List String → ℕ → Context → Except String (Option Channel) × String × Context
  | [], _, ctx => (.ok none, param.tokenGroup, ctx)
  | autoGroup :: rest, i, ctx =>
    match getRandomSatisfiedChannel reg autoGroup param.modelName param.requestPath attempted
        (query i).draw (query i).fault with
    | .error e => (.error e, autoGroup, ctx)
    | .ok none => selectAuto reg param attempted query rest (i + 1)
        { ctx with autoGroupIndex := some (i + 1) }
    | .ok (some c) => (.ok (some c), autoGroup,
        { ctx with autoGroup, autoGroupIndex := some i })

variable (reg : Registry)

/-- `CacheGetRandomSatisfiedChannel`: the channel, the group it was taken from and the context. -/
def cacheGetRandomSatisfiedChannel (param : RetryParam) (query : ℕ → Query)
    (ctx : Context) : Except String (Option Channel) × String × Context :=
  let attempted := attemptedChannelIDSetFromContext ctx
  if param.tokenGroup = "auto" then
    if param.autoEnabled = false then
      (.error "auto groups is not enabled", param.tokenGroup, ctx)
    else
      let start := ctx.autoGroupIndex.getD 0
      selectAuto reg param attempted query (param.autoGroups.drop start) start ctx
  else
    (getRandomSatisfiedChannel reg param.tokenGroup param.modelName param.requestPath attempted
      (query 0).draw (query 0).fault, param.tokenGroup, ctx)

/-! ### The first channel -/

def channelSupportsRequestPath (c : Channel) (requestPath model : String) : Bool :=
  c.type ≠ channelTypeAdvancedCustom ||
    c.advancedCustom.any fun config => config.supportsPathForModel requestPath model

/-- `isChannelEnabledForGroupModelDB`, and the same look at the lists of the cache. -/
def listsChannel (group name : String) (channelID : Int) : Bool :=
  if reg.memoryCacheEnabled = true then channelID ∈ reg.cache.group2model2channels group name
  else reg.tables.abilities.any fun a =>
    a.group = group && a.model = name && a.channelId = channelID && a.enabled

def isChannelEnabledForGroupModel (group modelName : String) (channelID : Int) : Bool :=
  if group = "" ∨ modelName = "" ∨ channelID ≤ 0 then false
  else if listsChannel reg group modelName channelID then true
  else
    let normalized := formatMatchingModelName modelName
    if normalized ≠ "" ∧ normalized ≠ modelName then listsChannel reg group normalized channelID
    else false

/-- `IsChannelAtHighestPriorityTier`: the priority is that of a channel the selector would take. -/
def isChannelAtHighestPriorityTier (ctx : Context)
    (group modelName requestPath : String) (channelID : Int) (query : Query) : Bool :=
  let attempted := attemptedChannelIDSetFromContext ctx
  if channelID ≤ 0 ∨ channelID ∈ attempted then false
  else match lookupChannel reg channelID with
    | none => false
    | some preferred =>
      match getRandomSatisfiedChannel reg group modelName requestPath attempted query.draw
          query.fault with
      | .ok (some highest) => preferred.getPriority = highest.getPriority
      | _ => false

/-- What the distributor reads: the selection, the channel forced for the token and the one the
request has affinity to. -/
structure Request where
  param : RetryParam
  (override preferred : Option Int)

def resolveAuto (holds : ℕ → String → Bool) :
    List String → ℕ → Context → Option (String × Context)
  | [], _, _ => none
  | g :: rest, i, ctx =>
    if holds i g then some (g, { ctx with autoGroup := g, autoGroupIndex := some i })
    else resolveAuto holds rest (i + 1) ctx

/-- The group a given channel is used in, if it is enabled, serves the path and passes the check. -/
def resolveGiven (param : RetryParam) (channelID : Int)
    (holds : ℕ → String → Bool) (ctx : Context) : Option (Channel × String × Context) :=
  match lookupChannel reg channelID with
  | none => none
  | some c =>
    if c.status = channelStatusEnabled ∧
        channelSupportsRequestPath c param.requestPath param.modelName = true then
      if param.tokenGroup = "auto" then
        (resolveAuto holds param.autoGroups 0 ctx).map fun (g, ctx') => (c, g, ctx')
      else if holds 0 param.tokenGroup then some (c, param.tokenGroup, ctx)
      else none
    else none

variable (req : Request)

def resolveTokenChannelOverride (ctx : Context) :
    Option (Channel × String × Context) :=
  req.override.bind fun id => resolveGiven reg req.param id
    (fun _ g => isChannelEnabledForGroupModel reg g req.param.modelName id) ctx

def resolveAffinity (query : ℕ → Query) (ctx : Context) :
    Option (Channel × String × Context) :=
  req.preferred.bind fun id => resolveGiven reg req.param id
    (fun i g => isChannelEnabledForGroupModel reg g req.param.modelName id &&
      isChannelAtHighestPriorityTier reg ctx g req.param.modelName req.param.requestPath id
        (query i)) ctx

def distribute (affinityQuery query : ℕ → Query) (ctx : Context) :
    Except String (Channel × String × Context) :=
  match resolveTokenChannelOverride reg req ctx with
  | some answer => .ok answer
  | none =>
    match resolveAffinity reg req affinityQuery ctx with
    | some answer => .ok answer
    | none =>
      match cacheGetRandomSatisfiedChannel reg req.param query ctx with
      | (.error e, _, _) => .error e
      | (.ok none, _, _) => .error "no available channel"
      | (.ok (some c), group, ctx') => .ok (c, group, ctx')

/-- `resolvedGroup` of `Relay`: the group that retries keep to. -/
def resolvedGroup (usingGroup tokenGroup : String) (ctx : Context) : String :=
  let group := if ctx.autoGroup ≠ "" then ctx.autoGroup else usingGroup
  if group = "" then tokenGroup else group

/-! ### The first channel is eligible -/

variable {query affinityQuery : ℕ → Query} {req : Request}

section First

variable {reg : Registry} {param : RetryParam}

/-- The channels eligible for the group, model and path: those of the exact model and those of the
normalized one. -/
def eligible (reg : Registry) (param : RetryParam) : List (List Int) :=
  [exactChannels reg param.tokenGroup param.modelName param.requestPath,
    normalizedChannels reg param.tokenGroup param.modelName param.requestPath]

variable {c : Channel} {group : String} {id : Int} {ctx ctx' : Context}

theorem mem_listed_of_listsChannel (h : Consistent reg) {name model requestPath : String}
    (hc : lookupChannel reg id = some c) (hstatus : c.status = channelStatusEnabled)
    (hpath : channelSupportsRequestPath c requestPath model = true) (hlists : listsChannel reg group name id = true) :
    id ∈ listedChannels reg group name requestPath model := by
  unfold channelSupportsRequestPath at hpath
  unfold lookupChannel at hc
  unfold listsChannel at hlists
  unfold listedChannels
  split_ifs at hc hlists ⊢ with henabled
  · have hlisted : id ∈ reg.cache.group2model2channels group name := by simpa using hlists
    unfold filterChannelsByRequestPathAndModel
    split_ifs
    · exact hlisted
    · refine mem_filter.mpr ⟨hlisted, ?_⟩
      unfold servesPath
      rw [hc]
      by_cases htype : c.type = channelTypeAdvancedCustom
      · rw [h.routes id c hc htype]
        exact hpath
      · simp [htype]
  · have hkey : c.id = id := by simpa using find?_some hc
    have hstored : c ∈ reg.tables.channels := mem_reverse.mp (mem_of_find?_eq_some hc)
    obtain ⟨a, ha, hrow⟩ := any_eq_true.mp hlists
    have hjoin : c ∈ findRelayEligibleChannels reg.tables group name := by
      unfold findRelayEligibleChannels
      rw [mem_insertionSort, mem_filter]
      refine ⟨hstored, ?_⟩
      have hroutable : routable reg.tables c = true := by simp [routable, hstatus]
      rw [hroutable, Bool.true_and, any_eq_true]
      refine ⟨a, ha, ?_⟩
      simp only [Bool.and_eq_true, decide_eq_true_eq] at hrow ⊢
      exact ⟨⟨⟨hrow.1.2.trans hkey.symm, hrow.1.1.1⟩, hrow.1.1.2⟩, hrow.2⟩
    refine mem_map.mpr ⟨c, mem_filter.mpr ⟨hjoin, ?_⟩, hkey⟩
    simp only [Bool.or_eq_true] at hpath
    simp only [not_mem_nil, not_false_eq_true, decide_true, Bool.true_and, Bool.or_eq_true]
    tauto

theorem mem_eligible_of_enabled (h : Consistent reg) (hc : lookupChannel reg id = some c)
    (hstatus : c.status = channelStatusEnabled)
    (hpath : channelSupportsRequestPath c param.requestPath param.modelName = true)
    (henabled : isChannelEnabledForGroupModel reg group param.modelName id = true) :
    id ∈ (eligible reg { param with tokenGroup := group }).flatten := by
  have hmem : ∀ name, listsChannel reg group name id = true →
      id ∈ listedChannels reg group name param.requestPath param.modelName :=
    fun name hlists => mem_listed_of_listsChannel h hc hstatus hpath hlists
  have hlists : listsChannel reg group param.modelName id = true ∨
      listsChannel reg group (formatMatchingModelName param.modelName) id = true := by
    unfold isChannelEnabledForGroupModel at henabled
    generalize formatMatchingModelName param.modelName = normalized at henabled ⊢
    simp only at henabled
    split_ifs at henabled with hblank hexact
    · exact .inl hexact
    · exact .inr henabled
  simp only [eligible, flatten_cons, flatten_nil, append_nil, mem_append]
  exact hlists.imp (hmem _) (hmem _)

theorem id_of_mem_eligible (h : Consistent reg) (hid : id ∈ (eligible reg param).flatten)
    (hc : lookupChannel reg id = some c) : c.id = id := by
  unfold lookupChannel at hc
  split_ifs at hc with henabled
  · simp only [eligible, flatten_cons, flatten_nil, append_nil, mem_append] at hid
    obtain ⟨d, hd, hkey⟩ := hid.elim (exists_of_mem_listed h henabled) (exists_of_mem_listed h henabled)
    rw [hd] at hc
    exact Option.some.inj hc ▸ hkey
  · simpa using find?_some hc

/-- What the distributor hands over: a channel eligible for the group, which the context leads back to. -/
structure Handed (reg : Registry) (param : RetryParam) (ctx : Context) (c : Channel) (group : String)
    (ctx' : Context) : Prop where
  eligible : c.id ∈ (eligible reg { param with tokenGroup := group }).flatten
  attempts : ctx'.useChannel = ctx.useChannel
  group : ctx'.autoGroup = group ∨ ctx'.autoGroup = ctx.autoGroup ∧ group = param.tokenGroup

variable {holds : ℕ → String → Bool} {groups : List String} {i : ℕ}

theorem resolveAuto_some (h : resolveAuto holds groups i ctx = some (group, ctx')) :
    ∃ j, holds j group = true ∧ ctx'.useChannel = ctx.useChannel ∧ ctx'.autoGroup = group := by
  induction groups generalizing i with
  | nil => simp [resolveAuto] at h
  | cons g rest ih =>
    unfold resolveAuto at h
    split_ifs at h with hg
    · obtain ⟨rfl, rfl⟩ : g = group ∧ _ = ctx' := by simpa using h
      exact ⟨i, hg, rfl, rfl⟩
    · exact ih h

section

variable (h : Consistent reg)

include h

theorem resolveGiven_handed
    (hholds : ∀ i g, holds i g = true → isChannelEnabledForGroupModel reg g param.modelName id = true)
    (hres : resolveGiven reg param id holds ctx = some (c, group, ctx')) : Handed reg param ctx c group ctx' := by
  unfold resolveGiven at hres
  cases hc : lookupChannel reg id with
  | none => simp [hc] at hres
  | some d =>
    simp only [hc] at hres
    split_ifs at hres with hok hauto hgroup
    · obtain ⟨⟨g, ctx₁⟩, hauto, heq⟩ := Option.map_eq_some_iff.mp hres
      obtain ⟨rfl, rfl, rfl⟩ : d = c ∧ g = group ∧ ctx₁ = ctx' := by simpa using heq
      obtain ⟨i, hg, huse, hmark⟩ := resolveAuto_some hauto
      have hmem := mem_eligible_of_enabled h hc hok.1 hok.2 (hholds i g hg)
      exact ⟨id_of_mem_eligible h hmem hc ▸ hmem, huse, .inl hmark⟩
    · obtain ⟨rfl, rfl, rfl⟩ : d = c ∧ param.tokenGroup = group ∧ ctx = ctx' := by simpa using hres
      have hmem := mem_eligible_of_enabled h hc hok.1 hok.2 (hholds 0 _ hgroup)
      exact ⟨id_of_mem_eligible h hmem hc ▸ hmem, rfl, .inr ⟨rfl, rfl⟩⟩

variable {attempted : List Int}

theorem mem_eligible_of_selected {draw : Draw}
    (hsel : getRandomSatisfiedChannel reg group param.modelName param.requestPath attempted draw none = .ok (some c)) :
    c.id ∈ (eligible reg { param with tokenGroup := group }).flatten := by
  rcases getRandomSatisfiedChannel_spec h draw with ⟨hnone, -⟩ | ⟨d, hd, -, hpick⟩
  · rw [hsel] at hnone
    cases hnone
  · rw [hsel] at hd
    cases hd
    obtain ⟨-, pool, hpool, hmem⟩ := hpick.mem
    exact mem_flatten.mpr ⟨pool, hpool, hmem⟩

theorem selectAuto_handed (hquery : ∀ i, (query i).fault = none)
    (hsel : selectAuto reg param attempted query groups i ctx = (.ok (some c), group, ctx')) :
    Handed reg param ctx c group ctx' := by
  induction groups generalizing i ctx with
  | nil => simp [selectAuto] at hsel
  | cons g rest ih =>
    unfold selectAuto at hsel
    rw [hquery] at hsel
    split at hsel
    · simp at hsel
    · have hrest := ih hsel
      exact ⟨hrest.eligible, hrest.attempts, hrest.group⟩
    · rename_i d hd
      obtain ⟨rfl, rfl, rfl⟩ : d = c ∧ g = group ∧ _ = ctx' := by simpa using hsel
      exact ⟨mem_eligible_of_selected h hd, rfl, .inl rfl⟩

/-- **First channel**: whichever way the distributor takes, the channel is eligible for its group. -/
theorem distribute_handed (hquery : ∀ i, (query i).fault = none)
    (hdist : distribute reg req affinityQuery query ctx = .ok (c, group, ctx')) :
    Handed reg req.param ctx c group ctx' := by
  unfold distribute at hdist
  split at hdist
  · rename_i answer hover
    cases hdist
    obtain ⟨id, -, hres⟩ := Option.bind_eq_some_iff.mp hover
    exact resolveGiven_handed h (fun _ _ hen => hen) hres
  split at hdist
  · rename_i answer haff
    cases hdist
    obtain ⟨id, -, hres⟩ := Option.bind_eq_some_iff.mp haff
    exact resolveGiven_handed h (fun _ _ hen => (Bool.and_eq_true_iff.mp hen).1) hres
  split at hdist
  · cases hdist
  · cases hdist
  · rename_i d g ctx₁ hsel
    cases hdist
    unfold cacheGetRandomSatisfiedChannel at hsel
    simp only at hsel
    split_ifs at hsel with hauto hoff
    · simp at hsel
    · exact selectAuto_handed h hquery hsel
    · obtain ⟨hd, rfl, rfl⟩ := Prod.mk.injEq _ _ _ _ ▸ hsel
      rw [hquery] at hd
      exact ⟨mem_eligible_of_selected h hd, rfl, .inr ⟨rfl, rfl⟩⟩

end

theorem Handed.resolvedGroup_eq (h : Handed reg param ctx c group ctx') (hauto : ctx.autoGroup = "")
    (hgroup : group ≠ "") (tokenGroup : String) : resolvedGroup param.tokenGroup tokenGroup ctx' = group := by
  rcases h.group with hmark | ⟨hsame, rfl⟩ <;> simp [resolvedGroup, *]

end First

/-! ### The relay loop -/

inductive Outcome where
  | setupFailed
  | bodyFailed
  | relayFailed
  | succeeded
  deriving DecidableEq

structure Attempt where
  query : ℕ → Query
  outcome : Outcome
  (sent gone : Bool)

inductive Stop where
  | committed
  | selectorFailed (text : String)
  | noChannel
  | bodyUnreadable
  | notContinued
  | served
  deriving DecidableEq

def shouldContinueSameGroupFailover (pinnedChannel sent gone : Bool) : Bool :=
  !(pinnedChannel || sent) && !gone

/-- The loop of `Relay` from turn `turn` on: `first` is the channel of the distributor while it is
not attempted, `sent` says that a response has been sent. -/
def relayLoop (reg : Registry) (param : RetryParam) (isFixedChannel : Bool) (attempts : ℕ → Attempt) :
    (fuel turn : ℕ) → (first : Option Channel) → (sent : Bool) → Context → Option (Stop × Context)
  | 0, _, _, _, _ => none
  | fuel + 1, turn, first, sent, ctx =>
    if sent = true then some (.committed, ctx)
    else
      let attempt := attempts turn
      let (chosen, ctx) : Except String (Option Channel) × Context := match first with
        | some c => (.ok (some c), ctx)
        | none => match cacheGetRandomSatisfiedChannel reg param attempt.query ctx with
          | (answer, _, ctx') => (answer, ctx')
      match chosen with
      | .error e => some (.selectorFailed e, ctx)
      | .ok none => some (.noChannel, ctx)
      | .ok (some c) =>
        let ctx := addUsedChannel ctx c.id
        match attempt.outcome with
        | .succeeded => some (.served, ctx)
        | .bodyFailed => some (.bodyUnreadable, ctx)
        | .setupFailed | .relayFailed =>
          if shouldContinueSameGroupFailover isFixedChannel attempt.sent attempt.gone then
            relayLoop reg param isFixedChannel attempts fuel (turn + 1) none attempt.sent ctx
          else some (.notContinued, ctx)

/-! ### Every eligible channel, once, in order -/

section Exhaustive

variable {reg : Registry} {param : RetryParam} {attempts : ℕ → Attempt}

/-- Every attempt fails before a response is sent, with the client still there, and no selection
fails. -/
def FailoverEligible (attempts : ℕ → Attempt) : Prop :=
  ∀ turn, ((attempts turn).outcome = .setupFailed ∨ (attempts turn).outcome = .relayFailed) ∧
    (attempts turn).sent = false ∧ (attempts turn).gone = false ∧
    ∀ i, ((attempts turn).query i).fault = none

/-- Channels of the exact model in falling order of priority, then other channels of the normalized
model in falling order of priority. -/
def InOrder (reg : Registry) (param : RetryParam) (ids : List Int) : Prop :=
  let exact := exactChannels reg param.tokenGroup param.modelName param.requestPath
  let normalized := normalizedChannels reg param.tokenGroup param.modelName param.requestPath
  ∃ es ns, ids = es ++ ns ∧ (∀ e ∈ es, e ∈ exact) ∧ (∀ n ∈ ns, n ∈ normalized ∧ n ∉ exact) ∧
    es.Pairwise (fun a b => priorityOf reg b ≤ priorityOf reg a) ∧
    ns.Pairwise (fun a b => priorityOf reg b ≤ priorityOf reg a)

variable {used : List Int}

theorem inOrder_of_run {ids : List Int}
    (h : Drain.Run (priorityOf reg) (eligible reg param) used ids) : InOrder reg param ids := by
  obtain ⟨es, rest, rfl, hes, hsorted, hall, hrest⟩ := h.split
  obtain ⟨ns, tail, rfl, hns, hnsorted, -, hdone⟩ := hrest.split
  have htail : tail = [] := by
    cases hdone with
    | done => rfl
    | pick hpick => exact hpick.elim
  subst htail
  rw [append_nil]
  refine ⟨es, ns, rfl, hes, fun n hn => ⟨hns n hn, fun hexact => ?_⟩, hsorted, hnsorted⟩
  exact hrest.nodup.2 n (mem_append_left _ hn) (hall n hexact)

variable {first id : Int} {ctx : Context} {ids : List Int}

theorem attempted_of_used (hpos : ∀ id ∈ used, 0 < id)
    (h : ctx.useChannel = used.map itoa) : attemptedChannelIDSetFromContext ctx = used := by
  unfold attemptedChannelIDSetFromContext
  rw [h, map_map]
  have hid : (fun rawID => atoi (trimSpace rawID)) ∘ itoa = id := by
    funext n
    rw [Function.comp_apply, trimSpace_itoa, atoi_itoa, id_eq]
  rw [hid, map_id, filter_eq_self]
  intro id hmem
  exact decide_eq_true (hpos id hmem)

theorem pos_of_mem_eligible (h : Consistent reg) {pool : List Int} (hpool : pool ∈ eligible reg param)
    (hid : id ∈ pool) : 0 < id := by
  simp only [eligible, mem_cons, not_mem_nil, or_false] at hpool
  rcases hpool with rfl | rfl <;> exact pos_of_mem_listed h hid

theorem relayLoop_attempt (hfail : FailoverEligible attempts) {fuel turn : ℕ} {first : Option Channel}
    {c : Channel} (hchosen : first = some c ∨ first = none ∧
      cacheGetRandomSatisfiedChannel reg param (attempts turn).query ctx = (.ok (some c), param.tokenGroup, ctx)) :
    relayLoop reg param false attempts (fuel + 1) turn first false ctx =
      relayLoop reg param false attempts fuel (turn + 1) none false (addUsedChannel ctx c.id) := by
  obtain ⟨hout, hsent, hgone, -⟩ := hfail turn
  rcases hchosen with rfl | ⟨rfl, hsel⟩
  · rcases hout with hout | hout
    · simp [relayLoop, hout, hsent, hgone, shouldContinueSameGroupFailover]
    · simp [relayLoop, hout, hsent, hgone, shouldContinueSameGroupFailover]
  · rcases hout with hout | hout
    · simp [relayLoop, hsel, hout, hsent, hgone, shouldContinueSameGroupFailover]
    · simp [relayLoop, hsel, hout, hsent, hgone, shouldContinueSameGroupFailover]

/-- **Drain**: from a context with the ids used so far the loop runs through what is left of the
eligible channels and ends for want of another. -/
theorem relayLoop_drains (h : Consistent reg) (hgroup : param.tokenGroup ≠ "auto")
    (hfail : FailoverEligible attempts) (used : List Int) (turn : ℕ) (ctx : Context)
    (hpos : ∀ id ∈ used, 0 < id) (hused : ctx.useChannel = used.map itoa) :
    ∃ ids, Drain.Run (priorityOf reg) (eligible reg param) used ids ∧
      ∀ fuel, (Drain.left (eligible reg param) used).card < fuel →
        relayLoop reg param false attempts fuel turn none false ctx =
          some (.noChannel, { ctx with useChannel := (used ++ ids).map itoa }) := by
  induction hn : (Drain.left (eligible reg param) used).card using Nat.strong_induction_on
    generalizing used turn ctx with
  | _ n ih =>
    have hsel : cacheGetRandomSatisfiedChannel reg param (attempts turn).query ctx =
        (getRandomSatisfiedChannel reg param.tokenGroup param.modelName param.requestPath used
          ((attempts turn).query 0).draw none, param.tokenGroup, ctx) := by
      unfold cacheGetRandomSatisfiedChannel
      simp only
      rw [if_neg hgroup, attempted_of_used hpos hused, (hfail turn).2.2.2]
    rcases getRandomSatisfiedChannel_spec h ((attempts turn).query 0).draw with
      ⟨hnone, hall⟩ | ⟨c, hc, hfound, hpick⟩
    · refine ⟨[], .done hall, fun fuel hfuel => ?_⟩
      obtain ⟨fuel, rfl⟩ : ∃ m, fuel = m + 1 := ⟨fuel - 1, by omega⟩
      rw [hnone] at hsel
      rw [append_nil, ← hused]
      simp [relayLoop, hsel]
    · have hcpos : 0 < c.id := by
        obtain ⟨-, pool, hpool, hid⟩ := hpick.mem
        exact pos_of_mem_eligible h hpool hid
      have hlt : (Drain.left (eligible reg param) (used ++ [c.id])).card <
          (Drain.left (eligible reg param) used).card := Drain.left_lt hpick
      obtain ⟨ids, hrun, hend⟩ := ih _ (hn ▸ hlt) (used ++ [c.id]) (turn + 1) (addUsedChannel ctx c.id) (by
          intro id hid
          rcases mem_append.mp hid with hid | hid
          · exact hpos id hid
          · exact mem_singleton.mp hid ▸ hcpos)
        (by simp [addUsedChannel, hused]) rfl
      refine ⟨c.id :: ids, .pick hpick hrun, fun fuel hfuel => ?_⟩
      obtain ⟨fuel, rfl⟩ : ∃ m, fuel = m + 1 := ⟨fuel - 1, by omega⟩
      rw [hc] at hsel
      rw [relayLoop_attempt hfail (.inr ⟨rfl, hsel⟩), hend fuel (by omega)]
      simp [addUsedChannel]

theorem relayLoop_from_first (h : Consistent reg) (hgroup : param.tokenGroup ≠ "auto")
    (hfail : FailoverEligible attempts) {first : Channel} (hfirst : 0 < first.id) (hfresh : ctx.useChannel = []) :
    ∃ ids, Drain.Run (priorityOf reg) (eligible reg param) [first.id] ids ∧
      ∀ fuel, (eligible reg param).flatten.length + 1 < fuel →
        relayLoop reg param false attempts fuel 0 (some first) false ctx =
          some (.noChannel, { ctx with useChannel := (first.id :: ids).map itoa }) := by
  obtain ⟨ids, hrun, hend⟩ := relayLoop_drains h hgroup hfail [first.id] 1
    (addUsedChannel ctx first.id) (by simpa using hfirst) (by simp [addUsedChannel, hfresh])
  refine ⟨ids, hrun, fun fuel hfuel => ?_⟩
  obtain ⟨fuel, rfl⟩ : ∃ m, fuel = m + 1 := ⟨fuel - 1, by omega⟩
  have hcard : (Drain.left (eligible reg param) [first.id]).card ≤ (eligible reg param).flatten.length :=
    (Finset.card_le_card Finset.sdiff_subset).trans (toFinset_card_le _)
  rw [relayLoop_attempt hfail (.inl rfl), hend fuel (by omega)]
  simp [addUsedChannel]

variable (hrun : Drain.Run (priorityOf reg) (eligible reg param) [first] ids)

include hrun in
theorem nodup_of_run : (first :: ids).Nodup :=
  nodup_cons.mpr ⟨fun hmem => hrun.nodup.2 _ hmem (by simp), hrun.nodup.1⟩

include hrun in
theorem mem_of_run (hid : id ∈ (eligible reg param).flatten) : id ∈ first :: ids := by
  obtain ⟨pool, hpool, hmem⟩ := mem_flatten.mp hid
  rcases hrun.covers pool hpool id hmem with hused | hlater
  · exact mem_singleton.mp hused ▸ mem_cons_self
  · exact mem_cons_of_mem _ hlater

include hrun in
theorem eligible_of_run (hid : id ∈ ids) : id ∈ (eligible reg param).flatten := by
  obtain ⟨pool, hpool, hmem⟩ := hrun.mem id hid
  exact mem_flatten.mpr ⟨pool, hpool, hmem⟩

/-- **Failover**: whatever channel comes first, a loop whose attempts all fail ends for want of a channel.
Every eligible channel is attempted, none twice, and those after the first come in order; so does the first
if the selector would take it. -/
theorem failover_exhaustive (h : Consistent reg) (hgroup : param.tokenGroup ≠ "auto")
    (hfail : FailoverEligible attempts) (first : Channel) (hfirst : 0 < first.id) (ctx : Context)
    (hfresh : ctx.useChannel = []) :
    ∃ ids,
      (∀ fuel, (eligible reg param).flatten.length + 1 < fuel →
        relayLoop reg param false attempts fuel 0 (some first) false ctx =
          some (.noChannel, { ctx with useChannel := (first.id :: ids).map GoText.itoa })) ∧
      (first.id :: ids).Nodup ∧
      (∀ id ∈ (eligible reg param).flatten, id ∈ first.id :: ids) ∧
      (∀ id ∈ ids, id ∈ (eligible reg param).flatten) ∧
      InOrder reg param ids ∧
      (Drain.Picks (priorityOf reg) [] (eligible reg param) first.id →
        InOrder reg param (first.id :: ids)) := by
  obtain ⟨ids, hrun, hend⟩ := relayLoop_from_first h hgroup hfail hfirst hfresh
  exact ⟨ids, hend, nodup_of_run hrun, fun id hid => mem_of_run hrun hid,
    fun id hid => eligible_of_run hrun hid, inOrder_of_run hrun,
    fun hpick => inOrder_of_run (.pick hpick hrun)⟩

/-- A request whose attempts all fail stays in the group that the distributor chose, and attempts
exactly the channels eligible for it. -/
theorem attempted_iff_eligible (h : Consistent reg) (hquery : ∀ i, (query i).fault = none)
    (hfail : FailoverEligible attempts) {ctx' : Context} {c : Channel} {group : String} (tokenGroup : String)
    (hfresh : ctx.useChannel = []) (hauto : ctx.autoGroup = "") (hgroup : group ≠ "auto") (hne : group ≠ "")
    (hdist : distribute reg req affinityQuery query ctx = .ok (c, group, ctx')) :
    let param := { req.param with tokenGroup := resolvedGroup req.param.tokenGroup tokenGroup ctx' }
    param.tokenGroup = group ∧ ∃ ids : List Int, (∀ fuel, (eligible reg param).flatten.length + 1 < fuel →
        relayLoop reg param false attempts fuel 0 (some c) false ctx' =
          some (.noChannel, { ctx' with useChannel := ids.map itoa })) ∧
      ids.Nodup ∧ ∀ id, id ∈ ids ↔ id ∈ (eligible reg param).flatten := by
  have hhanded := distribute_handed h hquery hdist
  rw [hhanded.resolvedGroup_eq hauto hne]
  obtain ⟨pool, hpool, hmem⟩ := mem_flatten.mp hhanded.eligible
  obtain ⟨ids, hrun, hend⟩ := @relayLoop_from_first reg { req.param with tokenGroup := group }
    attempts ctx' h hgroup hfail c (pos_of_mem_eligible h hpool hmem) (hhanded.attempts.trans hfresh)
  refine ⟨rfl, c.id :: ids, hend, nodup_of_run hrun, fun id => ⟨fun hid => ?_, mem_of_run hrun⟩⟩
  rcases mem_cons.mp hid with rfl | hid
  · exact hhanded.eligible
  · exact eligible_of_run hrun hid

end Exhaustive

/-! ### A forced channel comes out of order -/

section Forced

def twoTiers : Tables where
  channels := [⟨1, 1, 1, some 10, some 1, none⟩, ⟨2, 1, 1, some 0, some 1, none⟩]
  abilities := [⟨"default", "gpt-test", 1, true⟩, ⟨"default", "gpt-test", 2, true⟩]
  enabledAccountPoolChannelIDs := []

def twoTierRegistry : Registry := ⟨true, twoTiers, initChannelCache twoTiers⟩

theorem twoTierRegistry_consistent : Consistent twoTierRegistry := by
  apply consistent_initChannelCache
  intro c hc
  simp only [twoTiers, mem_cons, not_mem_nil, or_false] at hc
  rcases hc with rfl | rfl <;> exact ⟨by decide, rfl⟩

def lowestDraw : Draw where
  below limit := if 0 < limit then some 0 else none
  lt h := by
    split_ifs at h with hpos
    cases h
    exact hpos

def failedAttempt : Attempt := ⟨fun _ => ⟨lowestDraw, none⟩, .relayFailed, false, false⟩

def gptRequest : RetryParam := ⟨"default", "gpt-test", "/v1/chat/completions", false, []⟩

def emptyContext : Context := ⟨[], "", none⟩

theorem failover_exhaustive_two_tiers :
    ∃ ids, (1 :: ids).Nodup ∧ InOrder twoTierRegistry gptRequest (1 :: ids) := by
  obtain ⟨ids, -, hnodup, -, -, -, horder⟩ := failover_exhaustive twoTierRegistry_consistent
    (by decide : gptRequest.tokenGroup ≠ "auto") (fun _ => ⟨.inr rfl, rfl, rfl, fun _ => rfl⟩ :
      FailoverEligible fun _ => failedAttempt)
    ⟨1, 1, 1, some 10, some 1, none⟩ (by decide) emptyContext rfl
  exact ⟨ids, hnodup, horder (by decide)⟩

theorem attempted_iff_eligible_auto :
    ∃ ids : List Int, ids.Nodup ∧ ∀ id, id ∈ ids ↔ id ∈ (eligible twoTierRegistry gptRequest).flatten := by
  obtain ⟨-, ids, -, hids⟩ := attempted_iff_eligible twoTierRegistry_consistent (fun _ => rfl)
    (fun _ => ⟨.inr rfl, rfl, rfl, fun _ => rfl⟩ : FailoverEligible fun _ => failedAttempt) "" rfl rfl (by decide)
    (by decide) (rfl : distribute twoTierRegistry
      ⟨{ gptRequest with tokenGroup := "auto", autoGroups := ["default"] }, some 2, none⟩ failedAttempt.query
      failedAttempt.query emptyContext = .ok (⟨2, 1, 1, some 0, some 1, none⟩, "default", ⟨[], "default", some 0⟩))
  exact ⟨ids, hids⟩

/-- Channel `2` is forced for the token: it fails first, and channel `1` of a higher priority, listed
for the same model, is attempted after it. -/
theorem forced_channel_out_of_order :
    distribute twoTierRegistry ⟨gptRequest, some 2, none⟩ failedAttempt.query failedAttempt.query
        emptyContext = .ok (⟨2, 1, 1, some 0, some 1, none⟩, "default", emptyContext) ∧
    relayLoop twoTierRegistry gptRequest false (fun _ => failedAttempt) 4 0
        (some ⟨2, 1, 1, some 0, some 1, none⟩) false emptyContext =
      some (.noChannel, ⟨["2", "1"], "", none⟩) ∧ ¬ InOrder twoTierRegistry gptRequest [2, 1] := by
  refine ⟨rfl, by decide, ?_⟩
  rintro ⟨es, ns, heq, -, hns, hsorted, -⟩
  -- both are listed for the exact model, so none of them stands in the second part
  have hempty : ns = [] := by
    refine eq_nil_iff_forall_not_mem.mpr fun n hn => (hns n hn).2 ?_
    have hmem : n ∈ [2, 1] := heq ▸ mem_append_right es hn
    rcases mem_pair.mp hmem with rfl | rfl <;> decide
  rw [hempty, append_nil] at heq
  rw [← heq] at hsorted
  revert hsorted
  decide

end Forced

end WynthApi.Routing
