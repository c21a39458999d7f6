import Mathlib.Data.List.Sort
import WynthApi.Lib.Drain
import WynthApi.Lib.Fold
import WynthApi.Price.PerCall

/-!
# Which channel serves a request (model/channel_cache.go, model/ability.go)

The abilities list the channels of a group and a model; the memory cache holds the same lists by id.  A selection
filters the list of the exact model by path and by what was attempted, falls back to that of the normalized model if
nothing is left, and draws among the channels of the highest priority by weight.

A `Draw` is a value below the limit, or an entropy failure.  The routes of an advanced custom channel are a predicate
on path and model.  `sort.Slice` leaves the order of equal priorities open; here it is that of the abilities.
-/

namespace WynthApi.Routing

open WynthApi.Price List

structure AdvancedCustomConfig where
  supportsPathForModel : (requestPath model : String) → Bool

structure Channel where
  (id type status : Int)
  priority : Option Int
  weight : Option ℕ
  advancedCustom : Option AdvancedCustomConfig

def channelTypeAdvancedCustom : Int := 58

def channelStatusEnabled : Int := 1

def Channel.getPriority (c : Channel) : Int := c.priority.getD 0

def Channel.getWeightUint (c : Channel) : ℕ := c.weight.getD 0

structure Ability where
  (group model : String)
  channelId : Int
  enabled : Bool
  deriving DecidableEq

structure Tables where
  channels : List Channel
  abilities : List Ability
  enabledAccountPoolChannelIDs : List Int

/-! ### The memory cache -/

structure Cache where
  group2model2channels : String → String → List Int
  channelsIDM : Int → Option Channel
  channel2advancedCustomConfig : Int → Option AdvancedCustomConfig

variable (db : Tables)

/-- A disabled channel is listed only through an account pool. -/
def routable (c : Channel) : Bool :=
  c.status = channelStatusEnabled ∨ c.id ∈ db.enabledAccountPoolChannelIDs

/-- The map filled in the order of the table: the last channel of an id stays. -/
def channelById (id : Int) : Option Channel :=
  db.channels.reverse.find? fun c => c.id = id

def initChannelCache : Cache where
  group2model2channels group model :=
    ((db.abilities.filter fun a => a.enabled && a.group = group && a.model = model &&
      (channelById db a.channelId).any (routable db)).map Ability.channelId).insertionSort fun i j =>
        ((channelById db j).map Channel.getPriority).getD 0 ≤
          ((channelById db i).map Channel.getPriority).getD 0
  channelsIDM := channelById db
  channel2advancedCustomConfig id := (channelById db id).bind fun c =>
    if c.type = channelTypeAdvancedCustom then c.advancedCustom else none

def filterAttemptedChannels (channels attempted : List Int) : List Int :=
  channels.filter fun id => id ∉ attempted

variable (cache : Cache)

/-- A listed channel can serve the path.  An id without a channel stays, for the consistency error
that follows. -/
def servesPath (requestPath model : String) (id : Int) : Bool :=
  match cache.channelsIDM id with
  | none => true
  | some c => c.type ≠ channelTypeAdvancedCustom ||
      (cache.channel2advancedCustomConfig id).any fun config =>
        config.supportsPathForModel requestPath model

def filterChannelsByRequestPathAndModel (channels : List Int)
    (requestPath model : String) : List Int :=
  if requestPath = "" then channels else channels.filter (servesPath cache requestPath model)

/-! ### The weighted choice -/

structure Draw where
  below : ℕ → Option ℕ
  lt : ∀ {limit v}, below limit = some v → v < limit

inductive SelectError where
  | random
  | other (text : String)
  deriving DecidableEq

def walkWeights (targetPriority : Int) : List Channel → ℕ → Option Channel × Option SelectError
  | [], _ => (none, some (.other s!"channel not found at priority {targetPriority}"))
  | c :: rest, randomWeight =>
    if randomWeight < c.getWeightUint then (some c, none)
    else walkWeights targetPriority rest (randomWeight - c.getWeightUint)

variable (channels : List Channel)

def selectHighestPriorityWeightedChannelWithReader (draw : Draw) :
    Option Channel × Option SelectError :=
  match channels with
  | [] => (none, none)
  | first :: rest =>
    let targetPriority := rest.foldl (fun p c => max p c.getPriority) first.getPriority
    let targetChannels := (first :: rest).filter fun c => c.getPriority = targetPriority
    let totalWeight := (targetChannels.map Channel.getWeightUint).sum
    match targetChannels with
    | [] => (none, some (.other s!"no channel found at priority {targetPriority}"))
    | head :: _ =>
      let fallback :=
        if 0 < totalWeight then (targetChannels.find? fun c => 0 < c.getWeightUint).getD head
        else head
      if totalWeight = 0 then
        match draw.below targetChannels.length with
        | none => (some fallback, some .random)
        | some index => (targetChannels[index]?, none)
      else
        match draw.below totalWeight with
        | none => (some fallback, some .random)
        | some randomWeight => walkWeights targetPriority targetChannels randomWeight

/-- `selectHighestPriorityWeightedChannel`: an entropy failure falls back to an eligible channel. -/
def selectHighestPriorityWeightedChannel (draw : Draw) :
    Except String (Option Channel) :=
  match selectHighestPriorityWeightedChannelWithReader channels draw with
  | (selected, none) => .ok selected
  | (some selected, some .random) => .ok (some selected)
  | (none, some .random) => .error "selector randomness"
  | (_, some (.other text)) => .error text

/-! ### The selection -/

def candidatesOf (cache : Cache) : List Int → Except String (List Channel)
  | [] => .ok []
  | id :: rest =>
    match cache.channelsIDM id with
    | none => .error s!"数据库一致性错误，渠道# {id} 不存在，请联系管理员修复"
    | some c =>
      match candidatesOf cache rest with
      | .error e => .error e
      | .ok cs => .ok (c :: cs)

def selectFromCache (group model requestPath : String) (attempted : List Int)
    (draw : Draw) : Except String (Option Channel) :=
  let listed (name : String) : List Int := filterAttemptedChannels
    (filterChannelsByRequestPathAndModel cache (cache.group2model2channels group name) requestPath
      model) attempted
  let channels := if (listed model).isEmpty then listed (formatMatchingModelName model)
    else listed model
  if channels.isEmpty then .ok none
  else match candidatesOf cache channels with
    | .error e => .error e
    | .ok candidates => selectHighestPriorityWeightedChannel candidates draw

/-- `findRelayEligibleChannels`: the join of channels and abilities, ordered by channel id. -/
def findRelayEligibleChannels (group modelName : String) : List Channel :=
  (db.channels.filter fun c => routable db c && db.abilities.any fun a =>
    a.channelId = c.id && a.group = group && a.model = modelName && a.enabled).insertionSort
      fun c d => c.id ≤ d.id

def filterRelayEligibleChannels (requestPath model : String)
    (attempted : List Int) : List Channel :=
  channels.filter fun c => c.id ∉ attempted && (requestPath = "" ||
    c.type ≠ channelTypeAdvancedCustom ||
    c.advancedCustom.any fun config => config.supportsPathForModel requestPath model)

/-- `GetChannel`: the selection without the memory cache; `fault` is a query that fails. -/
def getChannel (group model requestPath : String) (attempted : List Int) (draw : Draw)
    (fault : Option String) : Except String (Option Channel) :=
  match fault with
  | some e => .error e
  | none =>
    let listed (name : String) : List Channel := filterRelayEligibleChannels
      (findRelayEligibleChannels db group name) requestPath model attempted
    let normalizedModel := formatMatchingModelName model
    let channels :=
      if (listed model).isEmpty ∧ normalizedModel ≠ "" ∧ normalizedModel ≠ model then
        listed normalizedModel
      else listed model
    if channels.isEmpty then .ok none else selectHighestPriorityWeightedChannel channels draw

structure Registry where
  memoryCacheEnabled : Bool
  tables : Tables
  cache : Cache

/-- `GetRandomSatisfiedChannel`; its `retry` argument plays no part in the choice. -/
def getRandomSatisfiedChannel (reg : Registry) (group model requestPath : String)
    (attempted : List Int) (draw : Draw) (fault : Option String) : Except String (Option Channel) :=
  if reg.memoryCacheEnabled = true then
    selectFromCache reg.cache group model requestPath attempted draw
  else getChannel reg.tables group model requestPath attempted draw fault

/-! ### What the weighted choice returns -/

section Choice

theorem walkWeights_spec (p : Int) (channels : List Channel) (v : ℕ)
    (h : v < (channels.map Channel.getWeightUint).sum) : ∃ c ∈ channels, walkWeights p channels v = (some c, none) := by
  induction channels generalizing v with
  | nil => simp at h
  | cons c rest ih =>
    unfold walkWeights
    by_cases hv : v < c.getWeightUint
    · exact ⟨c, mem_cons_self, if_pos hv⟩
    · rw [map_cons, sum_cons] at h
      obtain ⟨d, hd, heq⟩ := ih (v - c.getWeightUint) (by omega)
      exact ⟨d, mem_cons_of_mem _ hd, (if_neg hv).trans heq⟩

/-- From a list that is not empty a channel of the highest priority is chosen, whatever the random
source does. -/
theorem select_spec {channels : List Channel} (hne : channels ≠ []) (draw : Draw) :
    ∃ c ∈ channels, selectHighestPriorityWeightedChannel channels draw = .ok (some c) ∧
      ∀ d ∈ channels, d.getPriority ≤ c.getPriority := by
  cases channels with
  | nil => exact absurd rfl hne
  | cons first rest =>
    set top := rest.foldl (fun p c => max p c.getPriority) first.getPriority with htopdef
    have hmax : ∀ d ∈ first :: rest, d.getPriority ≤ top :=
      forall_mem_cons.mpr ⟨Fold.le_foldl_max, fun d hd => Fold.le_foldl_max_of_mem hd⟩
    -- every channel of the top tier will do
    suffices htier : ∃ c, c ∈ (first :: rest).filter (fun c => c.getPriority = top) ∧
        selectHighestPriorityWeightedChannel (first :: rest) draw = .ok (some c) by
      obtain ⟨c, hc, hsel⟩ := htier
      rw [mem_filter, decide_eq_true_eq] at hc
      exact ⟨c, hc.1, hsel, fun d hd => hc.2 ▸ hmax d hd⟩
    have htier : (first :: rest).filter (fun c => c.getPriority = top) ≠ [] := by
      rw [Ne, filter_eq_nil_iff]
      intro hnone
      have htop : top = _ ∨ ∃ d ∈ rest, top = d.getPriority := Fold.foldl_max_eq
      rcases htop with heq | ⟨d, hd, heq⟩
      · exact hnone first mem_cons_self (by simpa using heq.symm)
      · exact hnone d (mem_cons_of_mem _ hd) (by simpa using heq.symm)
    unfold selectHighestPriorityWeightedChannel selectHighestPriorityWeightedChannelWithReader
    simp only [← htopdef]
    generalize hts : (first :: rest).filter (fun c => c.getPriority = top) = targets at htier ⊢
    cases targets with
    | nil => exact absurd rfl htier
    | cons head tail =>
      simp only
      by_cases hzero : ((head :: tail).map Channel.getWeightUint).sum = 0
      · rw [if_pos hzero, hzero]
        cases hdraw : draw.below (head :: tail).length with
        | none => exact ⟨head, mem_cons_self, by simp⟩
        | some index =>
          have hlt := draw.lt hdraw
          refine ⟨(head :: tail)[index], getElem_mem hlt, ?_⟩
          simp only [getElem?_eq_getElem hlt]
      · rw [if_neg hzero]
        cases hdraw : draw.below ((head :: tail).map Channel.getWeightUint).sum with
        | none =>
          have hpos : 0 < ((head :: tail).map Channel.getWeightUint).sum := Nat.pos_of_ne_zero hzero
          rw [if_pos hpos]
          cases hfind : (head :: tail).find? fun c => 0 < c.getWeightUint with
          | none => exact ⟨head, mem_cons_self, rfl⟩
          | some c => exact ⟨c, mem_of_find?_eq_some hfind, rfl⟩
        | some v =>
          obtain ⟨c, hc, heq⟩ := walkWeights_spec top (head :: tail) v (draw.lt hdraw)
          exact ⟨c, hc, by simp only [heq]⟩

end Choice

/-! ### The selection drains the eligible channels -/

section Selection

variable (reg : Registry)

def listedChannels (group name requestPath model : String) : List Int :=
  if reg.memoryCacheEnabled = true then
    filterChannelsByRequestPathAndModel reg.cache (reg.cache.group2model2channels group name)
      requestPath model
  else (filterRelayEligibleChannels (findRelayEligibleChannels reg.tables group name) requestPath
    model []).map Channel.id

def exactChannels (group model requestPath : String) : List Int :=
  listedChannels reg group model requestPath model

def normalizedChannels (group model requestPath : String) : List Int :=
  listedChannels reg group (formatMatchingModelName model) requestPath model

def lookupChannel (id : Int) : Option Channel :=
  if reg.memoryCacheEnabled = true then reg.cache.channelsIDM id else channelById reg.tables id

def priorityOf (id : Int) : Int :=
  ((lookupChannel reg id).map Channel.getPriority).getD 0

/-- Channel ids are positive keys, a listed id has its channel, and the cached routes are those of
the channel. -/
structure Consistent : Prop where
  cached : ∀ group model, ∀ id ∈ reg.cache.group2model2channels group model,
    0 < id ∧ ∃ c, reg.cache.channelsIDM id = some c ∧ c.id = id
  routes : ∀ id c, reg.cache.channelsIDM id = some c → c.type = channelTypeAdvancedCustom →
    reg.cache.channel2advancedCustomConfig id = c.advancedCustom
  stored : ∀ c ∈ reg.tables.channels, 0 < c.id ∧ channelById reg.tables c.id = some c

theorem consistent_initChannelCache {db : Tables} {enabled : Bool}
    (h : ∀ c ∈ db.channels, 0 < c.id ∧ channelById db c.id = some c) :
    Consistent ⟨enabled, db, initChannelCache db⟩ := by
  refine ⟨fun group model id hid => ?_, fun id c hc htype => ?_, h⟩
  swap
  · have hc' : channelById db id = some c := hc
    simp only [initChannelCache, hc', Option.bind_some, if_pos htype]
  have hmem : id ∈ (db.abilities.filter fun a => a.enabled && a.group = group && a.model = model &&
      (channelById db a.channelId).any (routable db)).map Ability.channelId := by
    simpa only [initChannelCache, mem_insertionSort] using hid
  obtain ⟨a, ha, rfl⟩ := mem_map.mp hmem
  have hany := (mem_filter.mp ha).2
  rw [Bool.and_eq_true] at hany
  cases hc : channelById db a.channelId with
  | none => simp [hc] at hany
  | some c =>
    have hkey : c.id = a.channelId := by simpa using find?_some hc
    have hstored : c ∈ db.channels := mem_reverse.mp (mem_of_find?_eq_some hc)
    exact ⟨hkey ▸ (h c hstored).1, c, hc, hkey⟩

variable {name : String}

theorem formatMatchingModelName_ne_empty (h : name ≠ "") : formatMatchingModelName name ≠ "" := by
  have hbudget : ∀ {x start wildcard : String}, x ≠ "" → wildcard ≠ "" →
      handleThinkingBudgetModel x start wildcard ≠ "" := by
    intro x start wildcard hx hw
    unfold handleThinkingBudgetModel
    split_ifs
    · exact hw
    · exact hx
  unfold formatMatchingModelName
  simp only
  split_ifs <;> first | exact h | exact hbudget h (by decide) | decide

theorem candidatesOf_ok {cache : Cache} {ids : List Int}
    (h : ∀ id ∈ ids, ∃ c, cache.channelsIDM id = some c ∧ c.id = id) :
    ∃ cs, candidatesOf cache ids = .ok cs ∧ cs.map Channel.id = ids ∧ ∀ c ∈ cs, cache.channelsIDM c.id = some c := by
  induction ids with
  | nil => exact ⟨[], rfl, rfl, by simp⟩
  | cons id rest ih =>
    obtain ⟨c, hc, hid⟩ := h id mem_cons_self
    obtain ⟨cs, hcs, hmap, hall⟩ := ih fun i hi => h i (mem_cons_of_mem _ hi)
    refine ⟨c :: cs, by simp [candidatesOf, hc, hcs], by rw [map_cons, hid, hmap], fun d hd => ?_⟩
    rcases mem_cons.mp hd with rfl | hd
    · rw [hid]
      exact hc
    · exact hall d hd

def firstLeft (attempted exact normalized : List Int) : List Int :=
  let left (pool : List Int) : List Int := pool.filter fun id => id ∉ attempted
  if (left exact).isEmpty then left normalized else left exact

variable {exact normalized : List Int}

theorem firstLeft_nil {attempted : List Int} (h : firstLeft attempted exact normalized = []) :
    ∀ pool ∈ [exact, normalized], ∀ id ∈ pool, id ∈ attempted := by
  have hnone : ∀ {pool : List Int}, pool.filter (fun id => id ∉ attempted) = [] → ∀ id ∈ pool, id ∈ attempted := by
    intro pool hpool id hid
    have := filter_eq_nil_iff.mp hpool id hid
    simpa using this
  unfold firstLeft at h
  simp only at h
  split_ifs at h with hexact
  · rw [List.isEmpty_iff] at hexact
    intro pool hpool
    simp only [mem_cons, not_mem_nil, or_false] at hpool
    rcases hpool with rfl | rfl
    · exact hnone hexact
    · exact hnone h
  · exact absurd (isEmpty_iff.mpr h) hexact

variable {cs : List Channel}

theorem picks_of_firstLeft {reg : Registry} {attempted : List Int}
    {c : Channel} (hids : cs.map Channel.id = firstLeft attempted exact normalized)
    (hknown : ∀ d ∈ cs, lookupChannel reg d.id = some d) (hc : c ∈ cs)
    (hmax : ∀ d ∈ cs, d.getPriority ≤ c.getPriority) :
    Drain.Picks (priorityOf reg) attempted [exact, normalized] c.id := by
  have hrank : ∀ d ∈ cs, priorityOf reg d.id = d.getPriority := by
    intro d hd
    simp [priorityOf, hknown d hd]
  have hmem : c.id ∈ firstLeft attempted exact normalized := hids ▸ mem_map_of_mem hc
  have hbest : ∀ id ∈ firstLeft attempted exact normalized, priorityOf reg id ≤ priorityOf reg c.id := by
    intro id hid
    rw [← hids] at hid
    obtain ⟨d, hd, rfl⟩ := mem_map.mp hid
    rw [hrank d hd, hrank c hc]
    exact hmax d hd
  have hleft : ∀ {pool : List Int}, (∃ d ∈ pool, d ∉ attempted) ↔
      (pool.filter fun id => id ∉ attempted).isEmpty = false := by
    intro pool
    rw [← Bool.not_eq_true, List.isEmpty_iff, List.filter_eq_nil_iff]
    simp
  have hpool : ∀ {pool : List Int}, firstLeft attempted exact normalized = pool.filter (fun id => id ∉ attempted) →
      c.id ∈ pool ∧ c.id ∉ attempted ∧ ∀ d ∈ pool, d ∉ attempted → priorityOf reg d ≤ priorityOf reg c.id := by
    intro pool heq
    rw [heq] at hmem hbest
    have hc' := mem_filter.mp hmem
    refine ⟨hc'.1, by simpa using hc'.2, fun d hd hnew => hbest d ?_⟩
    exact mem_filter.mpr ⟨hd, by simpa using hnew⟩
  unfold Drain.Picks
  split_ifs with hexact
  · apply hpool
    unfold firstLeft
    simp only
    rw [hleft.mp hexact, if_neg (by simp)]
  · have hempty : (exact.filter fun id => id ∉ attempted).isEmpty = true := by
      by_contra h
      exact hexact (hleft.mpr (by simpa using h))
    have heq : firstLeft attempted exact normalized = normalized.filter fun id => id ∉ attempted := by
      unfold firstLeft
      simp only
      rw [hempty, if_pos rfl]
    unfold Drain.Picks
    have hnormal : ∃ d ∈ normalized, d ∉ attempted := ⟨c.id, (hpool heq).1, (hpool heq).2.1⟩
    rw [if_pos hnormal]
    exact hpool heq

variable {reg : Registry} {group model requestPath : String} {attempted : List Int}

theorem select_firstLeft (draw : Draw) (hids : cs.map Channel.id = firstLeft attempted exact normalized)
    (hknown : ∀ d ∈ cs, lookupChannel reg d.id = some d) :
    (cs = [] ∧ ∀ pool ∈ [exact, normalized], ∀ id ∈ pool, id ∈ attempted) ∨
    (cs ≠ [] ∧ ∃ c, selectHighestPriorityWeightedChannel cs draw = .ok (some c) ∧ lookupChannel reg c.id = some c ∧
      Drain.Picks (priorityOf reg) attempted [exact, normalized] c.id) := by
  by_cases hne : cs = []
  · subst hne
    exact .inl ⟨rfl, firstLeft_nil hids.symm⟩
  · obtain ⟨c, hc, hsel, hmax⟩ := select_spec hne draw
    exact .inr ⟨hne, c, hsel, hknown c hc, picks_of_firstLeft hids hknown hc hmax⟩

variable {id : Int}

theorem exists_of_mem_listed (h : Consistent reg) (henabled : reg.memoryCacheEnabled = true)
    (hid : id ∈ listedChannels reg group name requestPath model) :
    ∃ c, reg.cache.channelsIDM id = some c ∧ c.id = id := by
  unfold listedChannels filterChannelsByRequestPathAndModel at hid
  rw [if_pos henabled] at hid
  have hmem : id ∈ reg.cache.group2model2channels group name := by
    split_ifs at hid
    · exact hid
    · exact (mem_filter.mp hid).1
  exact (h.cached group name id hmem).2

theorem selectFromCache_spec (h : Consistent reg) (henabled : reg.memoryCacheEnabled = true) (draw : Draw) :
    let pools := [exactChannels reg group model requestPath, normalizedChannels reg group model requestPath]
    (selectFromCache reg.cache group model requestPath attempted draw = .ok none ∧
      ∀ pool ∈ pools, ∀ id ∈ pool, id ∈ attempted) ∨
    ∃ c, selectFromCache reg.cache group model requestPath attempted draw = .ok (some c) ∧
      lookupChannel reg c.id = some c ∧ Drain.Picks (priorityOf reg) attempted pools c.id := by
  intro pools
  set ids := firstLeft attempted (exactChannels reg group model requestPath)
    (normalizedChannels reg group model requestPath) with hidsdef
  have hsel : selectFromCache reg.cache group model requestPath attempted draw =
      if ids.isEmpty then .ok none
      else match candidatesOf reg.cache ids with
        | .error e => .error e
        | .ok candidates => selectHighestPriorityWeightedChannel candidates draw := by
    rw [hidsdef]
    unfold firstLeft exactChannels normalizedChannels listedChannels
    rw [if_pos henabled, if_pos henabled]
    rfl
  have hlisted : ∀ id ∈ ids, ∃ c, reg.cache.channelsIDM id = some c ∧ c.id = id := by
    intro id hid
    rw [hidsdef] at hid
    unfold firstLeft at hid
    simp only at hid
    split_ifs at hid <;> exact exists_of_mem_listed h henabled (mem_filter.mp hid).1
  obtain ⟨cs, hcs, hmap, hknown⟩ := candidatesOf_ok hlisted
  have hlookup : ∀ d ∈ cs, lookupChannel reg d.id = some d := by
    intro d hd
    unfold lookupChannel
    rw [if_pos henabled]
    exact hknown d hd
  rcases select_firstLeft draw hmap hlookup with ⟨rfl, hall⟩ | ⟨hne, c, hc, hfound, hpick⟩
  · refine .inl ⟨?_, hall⟩
    rw [hsel, ← hmap]
    rfl
  · refine .inr ⟨c, ?_, hfound, hpick⟩
    have hids : ids.isEmpty = false := by
      rw [← hmap]
      cases cs with
      | nil => exact absurd rfl hne
      | cons d ds => rfl
    rw [hsel, hids, if_neg (by simp), hcs]
    exact hc

theorem map_filterRelayEligibleChannels (cs : List Channel) :
    (filterRelayEligibleChannels cs requestPath model attempted).map Channel.id =
      ((filterRelayEligibleChannels cs requestPath model []).map Channel.id).filter fun id => id ∉ attempted := by
  unfold filterRelayEligibleChannels
  rw [filter_map, filter_filter]
  simp

theorem getChannel_spec (h : Consistent reg) (hdisabled : reg.memoryCacheEnabled = false) (draw : Draw) :
    let pools := [exactChannels reg group model requestPath, normalizedChannels reg group model requestPath]
    (getChannel reg.tables group model requestPath attempted draw none = .ok none ∧
      ∀ pool ∈ pools, ∀ id ∈ pool, id ∈ attempted) ∨
    ∃ c, getChannel reg.tables group model requestPath attempted draw none = .ok (some c) ∧
      lookupChannel reg c.id = some c ∧ Drain.Picks (priorityOf reg) attempted pools c.id := by
  intro pools
  set listed : String → List Channel := fun name => filterRelayEligibleChannels
    (findRelayEligibleChannels reg.tables group name) requestPath model attempted with hlisted
  set channels := if (listed model).isEmpty ∧ formatMatchingModelName model ≠ "" ∧
      formatMatchingModelName model ≠ model then listed (formatMatchingModelName model)
    else listed model with hchannels
  have hsel : getChannel reg.tables group model requestPath attempted draw none =
      if channels.isEmpty then .ok none else selectHighestPriorityWeightedChannel channels draw := rfl
  have hmap : ∀ name, (listed name).map Channel.id =
      (listedChannels reg group name requestPath model).filter fun id => id ∉ attempted := by
    intro name
    unfold listedChannels
    rw [hdisabled, if_neg (by simp)]
    exact map_filterRelayEligibleChannels _
  have hempty : ∀ name, ((listedChannels reg group name requestPath model).filter
      fun id => id ∉ attempted).isEmpty = (listed name).isEmpty := by
    intro name
    rw [← hmap]
    exact isEmpty_map
  have hids : channels.map Channel.id = firstLeft attempted (exactChannels reg group model requestPath)
      (normalizedChannels reg group model requestPath) := by
    unfold firstLeft exactChannels normalizedChannels
    simp only
    rw [hempty, ← hmap, ← hmap, hchannels]
    by_cases hnone : (listed model).isEmpty = true
    · rw [if_pos hnone]
      by_cases hsame : formatMatchingModelName model = model
      · rw [if_neg fun hc => hc.2.2 hsame, hsame]
      · -- only the empty name is normalized to the empty name
        have hname : formatMatchingModelName model ≠ "" := by
          refine formatMatchingModelName_ne_empty fun hmodel => hsame ?_
          rw [hmodel]
          decide
        rw [if_pos ⟨hnone, hname, hsame⟩]
    · rw [if_neg hnone, if_neg fun hc => hnone hc.1]
  have hstored : ∀ name, ∀ d ∈ listed name, d ∈ reg.tables.channels := by
    intro name d hd
    have hjoin := (mem_filter.mp hd).1
    unfold findRelayEligibleChannels at hjoin
    rw [mem_insertionSort] at hjoin
    exact (mem_filter.mp hjoin).1
  have hlookup : ∀ d ∈ channels, lookupChannel reg d.id = some d := by
    intro d hd
    have hmem : d ∈ reg.tables.channels := by
      rw [hchannels] at hd
      split_ifs at hd <;> exact hstored _ d hd
    unfold lookupChannel
    rw [hdisabled, if_neg (by simp)]
    exact (h.stored d hmem).2
  rcases select_firstLeft draw hids hlookup with ⟨hnil, hall⟩ | ⟨hne, c, hc, hfound, hpick⟩
  · refine .inl ⟨?_, hall⟩
    rw [hsel, hnil]
    rfl
  · refine .inr ⟨c, ?_, hfound, hpick⟩
    have hleft : ¬ channels.isEmpty = true := by
      rwa [List.isEmpty_iff]
    rw [hsel, if_neg hleft]
    exact hc

/-- **Selection**: without a failing query the selector finds no channel exactly when every eligible
one was attempted, and otherwise answers with the next pick. -/
theorem getRandomSatisfiedChannel_spec (h : Consistent reg) (draw : Draw) :
    let pools := [exactChannels reg group model requestPath, normalizedChannels reg group model requestPath]
    (getRandomSatisfiedChannel reg group model requestPath attempted draw none = .ok none ∧
      ∀ pool ∈ pools, ∀ id ∈ pool, id ∈ attempted) ∨
    ∃ c, getRandomSatisfiedChannel reg group model requestPath attempted draw none = .ok (some c) ∧
      lookupChannel reg c.id = some c ∧ Drain.Picks (priorityOf reg) attempted pools c.id := by
  unfold getRandomSatisfiedChannel
  cases henabled : reg.memoryCacheEnabled with
  | true => exact selectFromCache_spec h henabled draw
  | false => exact getChannel_spec h henabled draw

theorem pos_of_mem_listed (h : Consistent reg)
    (hid : id ∈ listedChannels reg group name requestPath model) : 0 < id := by
  unfold listedChannels at hid
  split_ifs at hid with henabled
  · have hmem : id ∈ reg.cache.group2model2channels group name := by
      unfold filterChannelsByRequestPathAndModel at hid
      split_ifs at hid
      · exact hid
      · exact (mem_filter.mp hid).1
    exact (h.cached group name id hmem).1
  · obtain ⟨c, hc, rfl⟩ := mem_map.mp hid
    have hjoin := (mem_filter.mp hc).1
    unfold findRelayEligibleChannels at hjoin
    rw [mem_insertionSort] at hjoin
    exact (h.stored c (mem_filter.mp hjoin).1).1

end Selection

end WynthApi.Routing
