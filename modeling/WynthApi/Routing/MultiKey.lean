import Mathlib.Data.List.Nodup
import Mathlib.Logic.Function.Basic

/-!
# The status of one key of a channel (model/channel.go)

A multi-key channel lists the keys that are not enabled.  `UpdateChannelStatus` makes the same change to
the cached channel and to the stored one, writes the stored one with its abilities and rebuilds the cache
from it.  Before that it returns if the stored channel has the requested status, which is asked for a key.

The channel is not bound to an account pool and every query succeeds.
-/

namespace WynthApi.Routing

open List Function

inductive ChannelStatus where
  | enabled
  | manuallyDisabled
  | autoDisabled
  deriving DecidableEq

structure MultiKeyChannel where
  keys : List String
  multiKeyStatusList : ℕ → Option ChannelStatus
  status : ChannelStatus

variable (c : MultiKeyChannel)

def MultiKeyChannel.keyStatus (i : ℕ) : ChannelStatus :=
  (c.multiKeyStatusList i).getD .enabled

def hasEnabledMultiKey : Bool :=
  (range c.keys.length).any fun i => c.keyStatus i = .enabled

def MultiKeyChannel.setKeyStatus (keyIndex : ℕ) (status : ChannelStatus) : MultiKeyChannel :=
  let entry := if status = .enabled then none else some status
  { c with multiKeyStatusList := update c.multiKeyStatusList keyIndex entry }

def handlerMultiKeyUpdate (usingKey : String) (status : ChannelStatus) :
    MultiKeyChannel :=
  if c.keys = [] then { c with status := status }
  else match c.keys.findIdx? (· = usingKey) with
    | none => if usingKey ≠ "" then c else { c with status := status }
    | some keyIndex =>
      let c := c.setKeyStatus keyIndex status
      if hasEnabledMultiKey c = false then { c with status := .autoDisabled }
      else if status = .enabled then { c with status := .enabled }
      else c

structure ChannelCopies where
  channel : MultiKeyChannel
  abilities : List Bool
  channelCache : Option MultiKeyChannel

def updateChannelStatus (memoryCacheEnabled : Bool) (usingKey : String) (status : ChannelStatus)
    (s : ChannelCopies) : Bool × ChannelCopies :=
  if memoryCacheEnabled = true ∧ s.channelCache = none then (false, s)
  else
    let cached := if memoryCacheEnabled = true
      then s.channelCache.map fun c => handlerMultiKeyUpdate c usingKey status else s.channelCache
    if s.channel.status = status then (false, { s with channelCache := cached })
    else
      let channel := handlerMultiKeyUpdate s.channel usingKey status
      (true,
        { channel := channel
          abilities := if channel.status ≠ s.channel.status
            then s.abilities.map fun _ => decide (status = .enabled) else s.abilities
          channelCache := if memoryCacheEnabled = true then some channel else cached })

variable {c : MultiKeyChannel} {i : ℕ} {k : String}

theorem handlerMultiKeyUpdate_spec (hkeys : c.keys.Nodup) (hk : c.keys[i]? = some k) (status : ChannelStatus) :
    let c' := handlerMultiKeyUpdate c k status
    (∀ j, c'.keyStatus j = if j = i then status else c.keyStatus j) ∧ c'.keys = c.keys ∧
    c'.status = bif hasEnabledMultiKey c' then (if status = .enabled then .enabled else c.status)
      else .autoDisabled := by
  obtain ⟨hi, hget⟩ := List.getElem?_eq_some_iff.mp hk
  have hfind : c.keys.findIdx? (· = k) = some i := by
    refine findIdx?_eq_some_iff_getElem.mpr ⟨hi, by simpa using hget, fun j hj => ?_⟩
    have hne : c.keys[j] ≠ k := fun heq => Nat.ne_of_lt hj (hkeys.getElem_inj_iff.mp (heq.trans hget.symm))
    simpa using hne
  have hsome : c.keys ≠ [] := by
    rintro hnil
    rw [hnil] at hk
    cases hk
  have hstatus : ∀ j, (c.setKeyStatus i status).keyStatus j = if j = i then status else c.keyStatus j := by
    intro j
    simp only [MultiKeyChannel.setKeyStatus, MultiKeyChannel.keyStatus, update_apply]
    split_ifs with hj hon
    · exact hon.symm
    · rfl
    · rfl
  unfold handlerMultiKeyUpdate
  rw [if_neg hsome, hfind]
  simp only
  cases hany : hasEnabledMultiKey (c.setKeyStatus i status) with
  | false =>
    rw [if_pos rfl]
    exact ⟨hstatus, rfl, (congrArg (cond · _ _) hany).symm⟩
  | true =>
    rw [if_neg (by decide)]
    split_ifs with hon
    · exact ⟨hstatus, rfl, (congrArg (cond · _ _) hany).symm⟩
    · exact ⟨hstatus, rfl, (congrArg (cond · _ _) hany).symm⟩

/-- The change is stored and the copies agree: key `i` and no other has the new status, and the channel, its
abilities and the cached copy follow the keys. -/
structure Persisted (memoryCacheEnabled : Bool) (i : ℕ) (status : ChannelStatus) (s s' : ChannelCopies) : Prop where
  own : s'.channel.keyStatus i = status
  others : ∀ j ≠ i, s'.channel.keyStatus j = s.channel.keyStatus j
  disabled : hasEnabledMultiKey s'.channel = false → s'.channel.status = .autoDisabled
  enabled : status = .enabled → s'.channel.status = .enabled
  abilities : ∀ e ∈ s'.abilities, e = decide (s'.channel.status = .enabled)
  cached : memoryCacheEnabled = true → ∃ c, s'.channelCache = some c ∧ c.status = s'.channel.status ∧
    ∀ j < s'.channel.keys.length, c.keyStatus j = s'.channel.keyStatus j

/-- Nothing needs to be stored: the key has the status already, and so have the copies what depends on it. -/
structure Stands (memoryCacheEnabled : Bool) (i : ℕ) (status : ChannelStatus) (s : ChannelCopies) : Prop where
  own : s.channel.keyStatus i = status
  disabled : hasEnabledMultiKey s.channel = false → status = .autoDisabled
  cached : memoryCacheEnabled = true → ∀ c ∈ s.channelCache,
    (∀ j < s.channel.keys.length, j ≠ i → c.keyStatus j = s.channel.keyStatus j) ∧
    (status = .enabled ∨ hasEnabledMultiKey s.channel = false ∨ c.status = status)

theorem hasEnabledMultiKey_congr {c' : MultiKeyChannel} (hkeys : c'.keys = c.keys)
    (h : ∀ j < c.keys.length, c'.keyStatus j = c.keyStatus j) : hasEnabledMultiKey c' = hasEnabledMultiKey c := by
  rw [Bool.eq_iff_iff]
  simp only [hasEnabledMultiKey, hkeys, any_eq_true, mem_range]
  exact exists_congr fun j => and_congr_right fun hj => by rw [h j hj]

variable {s : ChannelCopies} {memoryCacheEnabled : Bool} {status : ChannelStatus}

section persistence

variable (hkeys : s.channel.keys.Nodup) (hk : s.channel.keys[i]? = some k)
  (habilities : ∀ e ∈ s.abilities, e = decide (s.channel.status = .enabled))
  (hcached : memoryCacheEnabled = true → ∃ c, s.channelCache = some c ∧ c.keys = s.channel.keys)

include hcached in
theorem not_missing : ¬ (memoryCacheEnabled = true ∧ s.channelCache = none) := by
  rintro ⟨hon, hnone⟩
  obtain ⟨c, hc, -⟩ := hcached hon
  cases hnone.symm.trans hc

include hkeys hk habilities hcached

/-- The stored channel is written. -/
theorem persisted_of_ne (hnew : s.channel.status ≠ status) :
    Persisted memoryCacheEnabled i status s (updateChannelStatus memoryCacheEnabled k status s).2 := by
  obtain ⟨hkey, hlength, hstatus⟩ := handlerMultiKeyUpdate_spec hkeys hk status
  unfold updateChannelStatus
  rw [if_neg (not_missing hcached), if_neg hnew]
  simp only
  generalize handlerMultiKeyUpdate s.channel k status = channel at hkey hlength hstatus ⊢
  have hown : channel.keyStatus i = status := (hkey i).trans (if_pos rfl)
  have hsome : status = .enabled → hasEnabledMultiKey channel = true := by
    intro hon
    obtain ⟨hi, -⟩ := List.getElem?_eq_some_iff.mp hk
    exact any_eq_true.mpr ⟨i, mem_range.mpr (hlength ▸ hi), decide_eq_true (hown.trans hon)⟩
  refine ⟨hown, fun j hj => (hkey j).trans (if_neg hj), fun hnone => ?_, fun hon => ?_, ?_,
    fun hon => ⟨channel, if_pos hon, rfl, fun _ _ => rfl⟩⟩
  · rw [hstatus, hnone, cond_false]
  · rw [hstatus, hsome hon, cond_true, if_pos hon]
  · by_cases hsame : channel.status = s.channel.status
    · rw [if_neg (not_not.mpr hsame), hsame]
      exact habilities
    · rw [if_pos hsame]
      intro e he
      obtain ⟨-, -, rfl⟩ := mem_map.mp he
      rw [hstatus] at hsame ⊢
      cases hany : hasEnabledMultiKey channel with
      | false => exact decide_eq_decide.mpr (iff_of_false (fun hon => by simp [hsome hon] at hany) (by simp))
      | true =>
        rw [hany, cond_true] at hsame
        have hon : status = .enabled := by
          by_contra hoff
          exact hsame (if_neg hoff)
        rw [cond_true, if_pos hon, hon]

/-- The call returns before the stored channel is written, and only the cached copy is changed. -/
theorem persisted_iff_stands (hsame : s.channel.status = status) :
    Persisted memoryCacheEnabled i status s (updateChannelStatus memoryCacheEnabled k status s).2 ↔
      Stands memoryCacheEnabled i status s := by
  unfold updateChannelStatus
  rw [if_neg (not_missing hcached), if_pos hsame]
  cases memoryCacheEnabled with
  | false =>
    exact ⟨fun h => ⟨h.own, fun hoff => hsame ▸ h.disabled hoff, nofun⟩,
      fun h => ⟨h.own, fun _ _ => rfl, fun hoff => hsame.trans (h.disabled hoff), hsame.trans, habilities, nofun⟩⟩
  | true =>
    obtain ⟨c, hc, hckeys⟩ := hcached rfl
    obtain ⟨hkey, hlength, hstatus⟩ := handlerMultiKeyUpdate_spec (hckeys ▸ hkeys) (hckeys ▸ hk) status
    simp only [hc, if_true, Option.map_some]
    generalize handlerMultiKeyUpdate c k status = c' at hkey hlength hstatus ⊢
    -- the other keys of the changed copy are those of the cached one
    have hagree : s.channel.keyStatus i = status →
        ((∀ j < s.channel.keys.length, c'.keyStatus j = s.channel.keyStatus j) ↔
          ∀ j < s.channel.keys.length, j ≠ i → c.keyStatus j = s.channel.keyStatus j) := by
      intro hown
      refine forall₂_congr fun j _ => ?_
      rw [hkey j]
      split_ifs with hj
      · simp [hj, hown]
      · simp [hj]
    constructor
    · intro h
      obtain ⟨c'', hsome, hst, hks⟩ := h.cached rfl
      obtain rfl := Option.some.inj hsome
      refine ⟨h.own, fun hoff => hsame ▸ h.disabled hoff, fun _ c₁ hc₁ => ?_⟩
      obtain rfl := Option.some.inj (hc.symm.trans hc₁)
      refine ⟨(hagree h.own).mp hks, ?_⟩
      rw [hstatus, hasEnabledMultiKey_congr (hlength.trans hckeys) hks, hsame] at hst
      cases hany : hasEnabledMultiKey s.channel with
      | false => exact .inr (.inl rfl)
      | true =>
        rw [hany, cond_true] at hst
        split_ifs at hst with hon
        · exact .inl hon
        · exact .inr (.inr hst)
    · intro h
      obtain ⟨hothers, hchannel⟩ := h.cached rfl c hc
      have hks := (hagree h.own).mpr hothers
      refine ⟨h.own, fun _ _ => rfl, fun hoff => hsame.trans (h.disabled hoff), hsame.trans, habilities,
        fun _ => ⟨c', rfl, ?_, hks⟩⟩
      rw [hstatus, hasEnabledMultiKey_congr (hlength.trans hckeys) hks, hsame]
      cases hany : hasEnabledMultiKey s.channel with
      | false => exact (h.disabled hany).symm
      | true =>
        rw [hany] at hchannel
        rw [cond_true]
        split_ifs with hon
        · exact hon.symm
        · simpa [hon] using hchannel

/-- **Persistence**: the change of a key's status is stored exactly if the stored channel does not have the requested
status yet, or if nothing needs to be stored. -/
theorem updateChannelStatus_persists :
    Persisted memoryCacheEnabled i status s (updateChannelStatus memoryCacheEnabled k status s).2 ↔
      s.channel.status ≠ status ∨ Stands memoryCacheEnabled i status s := by
  by_cases hsame : s.channel.status = status
  · rw [persisted_iff_stands hkeys hk habilities hcached hsame]
    simp [hsame]
  · exact iff_of_true (persisted_of_ne hkeys hk habilities hcached hsame) (.inl hsame)

end persistence

theorem updateChannelStatus_persists_last :
    let s : ChannelCopies := ⟨⟨["a"], fun _ => none, .enabled⟩, [true], some ⟨["a"], fun _ => none, .enabled⟩⟩
    (updateChannelStatus true "a" .autoDisabled s).2.abilities = [false] ∧
    Persisted true 0 .autoDisabled s (updateChannelStatus true "a" .autoDisabled s).2 :=
  ⟨by decide, (updateChannelStatus_persists (by decide) rfl (by decide) fun _ => ⟨_, rfl, rfl⟩).mpr (.inl (by decide))⟩

/-- Key `a` of an enabled channel is disabled.  Enabling it changes the cached channel only. -/
theorem enabled_key_not_stored :
    let c : MultiKeyChannel := ⟨["a", "b"], fun i => if i = 0 then some .autoDisabled else none, .enabled⟩
    let s' := (updateChannelStatus true "a" .enabled ⟨c, [true], some c⟩).2
    s'.channel.keyStatus 0 = .autoDisabled ∧ s'.channelCache.map (·.keyStatus 0) = some .enabled := by
  decide

end WynthApi.Routing
