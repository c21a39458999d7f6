import Mathlib.Data.List.AList
import Mathlib.Data.Rat.Defs

/-!
# The settings of a channel as JSON (relaykit/dto, model/channel_monitor.go)

The column `settings` holds one JSON object, of which several writers own some keys each.  Two of them decode it as a
map, change their own keys and write it back.  The check of the upstream's models decodes it as the struct
`ChannelOtherSettings` and encodes the struct: keys that this does not know are gone then, and so are zero values.

The column is modelled as the object it encodes, the empty one if it has none.  Arrays of texts are `texts`; every
other array and every object is `other`, with its text.
-/

namespace WynthApi.Store.ChannelSettings

open List AList

/-! ### Objects -/

inductive Json where
  | null
  | bool (b : Bool)
  | num (n : ℚ)
  | str (s : String)
  | texts (l : List String)
  | other (s : String)
  deriving DecidableEq

abbrev Obj := AList fun _ : String => Json

def Agree (o o' : Obj) : Prop := ∀ key, o.lookup key = o'.lookup key

def agree (o o' : Obj) : Bool := (o.keys ++ o'.keys).all fun key => o.lookup key = o'.lookup key

theorem agree_iff {o o' : Obj} : agree o o' = true ↔ Agree o o' := by
  simp only [agree, all_eq_true, decide_eq_true_eq, Agree]
  constructor
  · intro h key
    by_cases hkey : key ∈ o.keys ++ o'.keys
    · exact h key hkey
    · have hnot := fun hin => hkey (mem_append.mpr hin)
      rw [lookup_eq_none.mpr fun hin => hnot (.inl hin), lookup_eq_none.mpr fun hin => hnot (.inr hin)]
  · intro h key _
    exact h key

variable (keys : List String) (requested o : Obj)

/-- The keys take the values that they have in `requested`, and go where they are not in it. -/
def replaceKeys : Obj :=
  keys.foldl (fun o key =>
    match requested.lookup key with
    | some value => o.insert key value
    | none => o.erase key) o

/-- The keys take the values that they have in `requested`, and stay where they are not in it. -/
def overlayKeys : Obj :=
  keys.foldl (fun o key =>
    match requested.lookup key with
    | some value => o.insert key value
    | none => o) o

theorem lookup_replaceKeys (key : String) :
    (replaceKeys keys requested o).lookup key =
      if key ∈ keys then requested.lookup key else o.lookup key := by
  induction keys generalizing o with
  | nil => rfl
  | cons k keys ih =>
    rw [replaceKeys, foldl_cons, ← replaceKeys, ih]
    by_cases hin : key ∈ keys
    · rw [if_pos hin, if_pos (mem_cons_of_mem k hin)]
    · rw [if_neg hin]
      by_cases hk : key = k
      · subst hk
        rw [if_pos mem_cons_self]
        cases requested.lookup key with
        | some value => exact lookup_insert _
        | none => exact lookup_erase _ _
      · rw [if_neg fun h => (mem_cons.mp h).elim hk hin]
        cases requested.lookup k with
        | some value => exact lookup_insert_ne hk
        | none => exact lookup_erase_ne hk

theorem lookup_overlayKeys_of_not_mem {keys : List String} {key : String} (h : key ∉ keys) (requested o : Obj) :
    (overlayKeys keys requested o).lookup key = o.lookup key := by
  induction keys generalizing o with
  | nil => rfl
  | cons k keys ih =>
    have hk : key ≠ k := fun hk => h (hk ▸ mem_cons_self)
    rw [overlayKeys, foldl_cons, ← overlayKeys, ih fun hin => h (mem_cons_of_mem k hin)]
    cases requested.lookup k with
    | some value => exact lookup_insert_ne hk
    | none => rfl

/-! ### The struct -/

inductive FieldKind where
  | flag
  | int
  | float
  | text
  | texts
  | optFlag
  | optInt
  | nested
  deriving DecidableEq

/-- `ChannelOtherSettings`; every field is left out of the encoding when it is zero. -/
def channelOtherSettingsFields : List (String × FieldKind) :=
  [("azure_responses_version", .text), ("client_identity_preset", .text), ("vertex_key_type", .text),
   ("openrouter_enterprise", .optFlag), ("claude_beta_query", .flag), ("allow_service_tier", .flag),
   ("allow_inference_geo", .flag), ("allow_speed", .flag), ("allow_safety_identifier", .flag),
   ("disable_store", .flag), ("allow_include_obfuscation", .flag), ("disable_task_polling_sleep", .flag),
   ("aws_key_type", .text), ("upstream_model_update_check_enabled", .flag),
   ("upstream_model_update_auto_sync_enabled", .flag), ("upstream_model_update_last_check_time", .int),
   ("upstream_model_update_last_detected_models", .texts),
   ("upstream_model_update_last_removed_models", .texts), ("upstream_model_update_ignored_models", .texts),
   ("channel_monitor_enabled", .flag), ("channel_monitor_interval_minutes", .int),
   ("channel_monitor_model", .text), ("channel_dead_recovery_enabled", .flag),
   ("channel_dead_recovery_min_minutes", .int), ("channel_dead_recovery_max_minutes", .int),
   ("channel_auto_priority_enabled", .flag), ("channel_auto_priority_interval_minutes", .int),
   ("channel_auto_priority_window_hours", .int), ("channel_auto_priority_availability_window_hours", .int),
   ("channel_auto_priority_rate_multiplier", .float), ("channel_auto_priority_last_run_at", .int),
   ("channel_auto_priority_last_applied_at", .int), ("channel_auto_priority_last_score", .nested),
   ("generated_by_upstream_source_id", .int), ("generated_by_upstream_mapping_id", .int),
   ("codex_image_generation_bridge_policy", .text), ("auto_retry_times", .optInt),
   ("channel_retry_status_codes", .text), ("channel_auto_disable_status_codes", .text),
   ("channel_failure_keywords", .text), ("advanced_custom", .nested)]

section

-- decoding and encoding the text of a nested struct; none where it does not decode
variable (renest : String → Option String)

/-- A value decoded into a field and encoded again: `none` if it does not decode, `some none` if it is left
out. -/
def FieldKind.recode : FieldKind → Json → Option (Option Json)
  | _, .null => some none
  | .flag, .bool b => some (if b then some (.bool true) else none)
  | .int, .num n => if n.den = 1 then some (if n = 0 then none else some (.num n)) else none
  | .float, .num n => some (if n = 0 then none else some (.num n))
  | .text, .str s => some (if s = "" then none else some (.str s))
  | .texts, .texts l => some (if l = [] then none else some (.texts l))
  | .optFlag, .bool b => some (some (.bool b))
  | .optInt, .num n => if n.den = 1 then some (some (.num n)) else none
  | .nested, .other s => (renest s).map fun s' => some (.other s')
  | _, _ => none

def decodes (o : Obj) : Bool :=
  channelOtherSettingsFields.all fun field =>
    match o.lookup field.1 with
    | none => true
    | some value => (field.2.recode renest value).isSome

/-- The object decoded into the struct and encoded again: `SetOtherSettings(GetOtherSettings())`. -/
def recode (o : Obj) : Obj :=
  channelOtherSettingsFields.foldl (fun out field =>
    match (o.lookup field.1).bind (field.2.recode renest) with
    | some (some value) => out.insert field.1 value
    | _ => out) ∅

end

variable (o : Obj) (key : String)

def intField : Int :=
  match o.lookup key with
  | some (.num n) => n.num
  | _ => 0

def flagField : Bool :=
  match o.lookup key with
  | some (.bool b) => b
  | _ => false

/-! ### Whose keys -/

def channelMonitorEditableSettingKeys : List String :=
  ["channel_monitor_enabled", "channel_monitor_interval_minutes", "channel_monitor_model"]

def channelAutoPriorityIntervalKey : String := "channel_auto_priority_interval_minutes"
def channelAutoPriorityAvailabilityWindowKey : String := "channel_auto_priority_availability_window_hours"
def channelDeadRecoveryMinMinutesKey : String := "channel_dead_recovery_min_minutes"
def channelDeadRecoveryMaxMinutesKey : String := "channel_dead_recovery_max_minutes"

def channelAutoPriorityEditableSettingKeys : List String :=
  ["channel_auto_priority_enabled", "channel_auto_priority_interval_minutes",
   "channel_auto_priority_window_hours", "channel_auto_priority_availability_window_hours",
   "channel_auto_priority_rate_multiplier"]

def channelDeadRecoveryEditableSettingKeys : List String :=
  ["channel_dead_recovery_enabled", channelDeadRecoveryMinMinutesKey, channelDeadRecoveryMaxMinutesKey]

def workerSettingKeys : List String :=
  ["channel_auto_priority_enabled", "channel_auto_priority_interval_minutes",
   "channel_auto_priority_window_hours", "channel_auto_priority_availability_window_hours",
   "channel_auto_priority_last_run_at", "channel_auto_priority_last_applied_at",
   "channel_auto_priority_last_score"]

def upstreamModelCheckKeys : List String :=
  ["upstream_model_update_last_check_time", "upstream_model_update_last_detected_models",
   "upstream_model_update_last_removed_models"]

/-! ### The monitor's settings -/

structure Request where
  requested : Obj
  scope : String

namespace Request

def monitor (r : Request) : Bool := r.scope = "" || r.scope = "monitor"

variable (r : Request)

def autoPriority : Bool := r.scope = "" || r.scope = "auto-priority"

def deadRecovery : Bool := r.scope = "dead-recovery"

def availabilityWindowRequested : Bool :=
  r.autoPriority && (r.requested.lookup channelAutoPriorityAvailabilityWindowKey).isSome

def intervalRequested : Bool :=
  r.autoPriority && (r.requested.lookup channelAutoPriorityIntervalKey).isSome

end Request

def generated : Bool :=
  intField o "generated_by_upstream_source_id" ≠ 0 || intField o "generated_by_upstream_mapping_id" ≠ 0

variable (r : Request) (current : Obj)

def Request.domain : List String :=
  (if r.monitor then channelMonitorEditableSettingKeys else []) ++
    (if r.autoPriority then
      if generated current then [channelAutoPriorityIntervalKey, channelAutoPriorityAvailabilityWindowKey]
      else channelAutoPriorityEditableSettingKeys
    else []) ++
    (if r.deadRecovery then channelDeadRecoveryEditableSettingKeys else [])

def Request.merge : Obj :=
  let o := if r.monitor then replaceKeys channelMonitorEditableSettingKeys r.requested current else current
  let o :=
    if r.autoPriority then
      if generated current then
        overlayKeys [channelAutoPriorityIntervalKey, channelAutoPriorityAvailabilityWindowKey] r.requested o
      else replaceKeys channelAutoPriorityEditableSettingKeys r.requested o
    else o
  if r.deadRecovery then replaceKeys channelDeadRecoveryEditableSettingKeys r.requested o else o

theorem Request.lookup_merge {r : Request} {current : Obj} {key : String} (h : key ∉ r.domain current) :
    (r.merge current).lookup key = current.lookup key := by
  simp only [Request.domain, mem_append, not_or] at h
  obtain ⟨⟨hmonitor, hauto⟩, hdead⟩ := h
  have hreplace : ∀ (b : Bool) (keys : List String) (o : Obj), key ∉ (if b then keys else []) →
      (if b then replaceKeys keys r.requested o else o).lookup key = o.lookup key := by
    intro b keys o hnot
    cases b with
    | false => rfl
    | true => exact (lookup_replaceKeys keys r.requested o key).trans (if_neg hnot)
  rw [Request.merge, hreplace _ _ _ hdead]
  cases hb : r.autoPriority with
  | false => exact hreplace _ _ _ hmonitor
  | true =>
    rw [hb] at hauto
    simp only [if_true] at hauto ⊢
    cases hgen : generated current with
    | false =>
      simp only [hgen, Bool.false_eq_true, if_false] at hauto ⊢
      rw [lookup_replaceKeys, if_neg hauto]
      exact hreplace _ _ _ hmonitor
    | true =>
      simp only [hgen, if_true] at hauto ⊢
      rw [lookup_overlayKeys_of_not_mem hauto]
      exact hreplace _ _ _ hmonitor

def normalizeChannelAutoPriorityWindowHours (windowHours : Int) : Int :=
  if windowHours ≤ 0 then 24 else if 168 < windowHours then 168 else windowHours

/-- The lower bound that `NormalizeChannelDeadRecoverySettings` leaves. -/
def effectiveDeadRecoveryMin : Int :=
  if intField o channelDeadRecoveryMinMinutesKey < 1 then 15 else intField o channelDeadRecoveryMinMinutesKey

def Request.checkDeadRecovery : Except String Unit :=
  let minRequested := (r.requested.lookup channelDeadRecoveryMinMinutesKey).isSome
  let maxRequested := (r.requested.lookup channelDeadRecoveryMaxMinutesKey).isSome
  if r.deadRecovery = false then .ok ()
  else if minRequested ∧ intField r.requested channelDeadRecoveryMinMinutesKey < 1 then
    .error "settings.channel_dead_recovery_min_minutes must be >= 1"
  else if maxRequested ∧ intField r.requested channelDeadRecoveryMaxMinutesKey < 1 then
    .error "settings.channel_dead_recovery_max_minutes must be >= 1"
  else if maxRequested ∧
      intField r.requested channelDeadRecoveryMaxMinutesKey < effectiveDeadRecoveryMin r.requested then
    .error "settings.channel_dead_recovery_max_minutes must be >= settings.channel_dead_recovery_min_minutes"
  else .ok ()

def Request.checkMerged (merged : Obj) : Except String Unit :=
  let window := intField r.requested channelAutoPriorityAvailabilityWindowKey
  if flagField merged "channel_monitor_enabled" ∧ intField merged "channel_monitor_interval_minutes" < 1 then
    .error "settings.channel_monitor_interval_minutes must be >= 1"
  else if r.availabilityWindowRequested ∧ window ≠ normalizeChannelAutoPriorityWindowHours window then
    .error "settings.channel_auto_priority_availability_window_hours must be between 1 and 168"
  else if r.intervalRequested ∧ intField r.requested channelAutoPriorityIntervalKey < 0 then
    .error "settings.channel_auto_priority_interval_minutes must be >= 0"
  else .ok ()

def Request.sync (member : Obj) : Obj :=
  let o := if r.availabilityWindowRequested then
      member.insert channelAutoPriorityAvailabilityWindowKey
        (.num (intField r.requested channelAutoPriorityAvailabilityWindowKey))
    else member
  if r.intervalRequested then
    o.insert channelAutoPriorityIntervalKey (.num (intField r.requested channelAutoPriorityIntervalKey))
  else o

def syncDomain : List String := [channelAutoPriorityIntervalKey, channelAutoPriorityAvailabilityWindowKey]

theorem Request.lookup_sync {r : Request} {member : Obj} {key : String} (h : key ∉ syncDomain) :
    (r.sync member).lookup key = member.lookup key := by
  have hinterval : key ≠ channelAutoPriorityIntervalKey := fun hk => h (hk ▸ mem_cons_self)
  have hwindow : key ≠ channelAutoPriorityAvailabilityWindowKey := fun hk => h (by simp [syncDomain, hk])
  rw [Request.sync]
  cases r.intervalRequested with
  | false =>
    cases r.availabilityWindowRequested with
    | false => rfl
    | true => exact lookup_insert_ne hwindow
  | true =>
    simp only [if_true]
    rw [lookup_insert_ne hinterval]
    cases r.availabilityWindowRequested with
    | false => rfl
    | true => exact lookup_insert_ne hwindow

/-! ### The worker of auto-priority -/

structure WorkerSettings where
  enabled : Bool
  (intervalMinutes windowHours availabilityWindowHours lastRunAt lastAppliedAt : Int)
  lastScore : Option String

variable (n : Int)

def encodeInt : Option Json := if n = 0 then none else some (.num n)

def WorkerSettings.encode (w : WorkerSettings) : Obj :=
  [("channel_auto_priority_enabled", if w.enabled then some (.bool true) else none),
   ("channel_auto_priority_interval_minutes", encodeInt w.intervalMinutes),
   ("channel_auto_priority_window_hours", encodeInt w.windowHours),
   ("channel_auto_priority_availability_window_hours", encodeInt w.availabilityWindowHours),
   ("channel_auto_priority_last_run_at", encodeInt w.lastRunAt),
   ("channel_auto_priority_last_applied_at", encodeInt w.lastAppliedAt),
   ("channel_auto_priority_last_score", w.lastScore.map Json.other)].foldl
    (fun o field =>
      match field.2 with
      | some value => o.insert field.1 value
      | none => o) ∅

/-! ### The check of the upstream's models -/

structure CheckOutcome where
  now : Int
  /-- The models to add and to remove, or `none` if the fetch failed. -/
  fetched : Option (List String × List String)
  allowAutoApply : Bool

def setTexts (l : List String) : Obj :=
  if l = [] then o.erase key else o.insert key (.texts l)

def setInt : Obj :=
  if n = 0 then o.erase key else o.insert key (.num n)

def CheckOutcome.settings (c : CheckOutcome) (copy : Obj) : Obj :=
  let o := setInt copy "upstream_model_update_last_check_time" c.now
  match c.fetched with
  | none => o
  | some (pendingAddModels, pendingRemoveModels) =>
    let detected :=
      if c.allowAutoApply ∧ flagField copy "upstream_model_update_auto_sync_enabled" ∧
          pendingAddModels ≠ [] then []
      else pendingAddModels
    setTexts (setTexts o "upstream_model_update_last_detected_models" detected)
      "upstream_model_update_last_removed_models" pendingRemoveModels

theorem lookup_setTexts {o : Obj} {key key' : String} (h : key' ≠ key) (l : List String) :
    (setTexts o key l).lookup key' = o.lookup key' := by
  rw [setTexts]
  split_ifs
  · exact lookup_erase_ne h
  · exact lookup_insert_ne h

theorem lookup_setInt {o : Obj} {key key' : String} (h : key' ≠ key) (n : Int) :
    (setInt o key n).lookup key' = o.lookup key' := by
  rw [setInt]
  split_ifs
  · exact lookup_erase_ne h
  · exact lookup_insert_ne h

theorem CheckOutcome.lookup_settings {c : CheckOutcome} {copy : Obj} {key : String}
    (h : key ∉ upstreamModelCheckKeys) : (c.settings copy).lookup key = copy.lookup key := by
  simp only [upstreamModelCheckKeys, mem_cons, not_mem_nil, or_false, not_or] at h
  obtain ⟨htime, hdetected, hremoved⟩ := h
  rw [CheckOutcome.settings]
  cases c.fetched with
  | none => exact lookup_setInt htime _
  | some pending =>
    rw [lookup_setTexts hremoved, lookup_setTexts hdetected, lookup_setInt htime]

end WynthApi.Store.ChannelSettings
