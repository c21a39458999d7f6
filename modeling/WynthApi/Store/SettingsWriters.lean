import WynthApi.Lib.Run
import WynthApi.Store.ChannelSettings

/-!
# Who writes a channel's settings, and what stays

Three writers share the column: `UpdateChannelMonitorSettings` under the locks of the channel's group, the
worker of auto-priority by comparing the text it read (service/upstream_source_auto_priority.go), and the
check of the upstream's models, which writes the copy it read before its fetch
(controller/channel_upstream_update.go).

`last` is not in the source: it notes for each channel and key the value that an owner of the key committed last.
`Faithful` says that the column has these values.
-/

namespace WynthApi.Store.SettingsWriters

open StepSys ChannelSettings List

/-! ### Rows -/

structure Channel where
  id : Int
  group : String
  (status priority : Int)
  settings : Obj

structure Check where
  channelID : Int
  seen : Obj

structure State where
  rows : List Channel
  last : Int → String → Option ChannelSettings.Json
  checks : Nat → Option Check

structure Write where
  id : Int
  domain : List String
  settings : Obj

variable (s : State)

def State.commit (w : Write) : State :=
  { s with
    rows := s.rows.map fun r => if r.id = w.id then { r with settings := w.settings } else r
    last := fun id key => if id = w.id ∧ key ∈ w.domain then w.settings.lookup key else s.last id key }

def State.find (id : Int) : Option Channel := s.rows.find? fun r => r.id = id

section

variable (renest : String → Option String) (validateSettings : Obj → Except String Unit)

/-! ### The writers -/

def syncMember (r : Request) (s : State) (id : Int) : Except String State :=
  match s.find id with
  | none => .ok s
  | some member =>
    if decodes renest member.settings = false then .error "invalid stored settings for channel"
    else if flagField member.settings "channel_auto_priority_enabled" = false then .ok s
    else .ok (s.commit { id, domain := syncDomain, settings := r.sync member.settings })

/-- The writes of `UpdateChannelMonitorSettings` once the settings are checked. -/
def writeMonitorSettings (r : Request) (s : State) (current : Channel) : Except String State :=
  let s₁ := s.commit { id := current.id, domain := r.domain current.settings
                       settings := r.merge current.settings }
  if r.availabilityWindowRequested = false ∧ r.intervalRequested = false then .ok s₁
  else
    ((s.rows.filter fun m => m.group = current.group ∧ m.id ≠ current.id).map (·.id)).foldlM
      (syncMember renest r) s₁

def updateChannelMonitorSettings (channelID : Int) (r : Request) (s : State) : Except String State :=
  if decodes renest r.requested = false then .error "invalid channel monitor settings"
  else if r.monitor = false ∧ r.autoPriority = false ∧ r.deadRecovery = false then
    .error "invalid channel settings update scope"
  else
    match s.find channelID with
    | none => .error "record not found"
    | some current =>
      if decodes renest current.settings = false then .error "invalid stored settings for channel"
      else do
        r.checkDeadRecovery
        r.checkMerged (r.merge current.settings)
        validateSettings (r.merge current.settings)
        writeMonitorSettings renest r s current

structure Candidate where
  (channelID status : Int)
  seen : Obj
  worker : WorkerSettings
  priority : Option Int
  sameText : Bool

variable (s : State)

def State.setPriority (id : Int) (priority : Option Int) : State :=
  { s with rows := s.rows.map fun r => if r.id = id then { r with priority := priority.getD r.priority } else r }

/-- `updateAutoPriorityCandidate`; equal texts encode the same object. -/
def updateAutoPriorityCandidate (c : Candidate) : Except String State :=
  match s.find c.channelID with
  | none => .error "generated channel changed"
  | some current =>
    if current.status = c.status ∧ c.sameText = true ∧ agree current.settings c.seen = true then
      .ok ((s.commit { id := c.channelID, domain := workerSettingKeys
                       settings := replaceKeys workerSettingKeys c.worker.encode c.seen }).setPriority
        c.channelID c.priority)
    else .error "generated channel changed"

variable (name : Nat)

def readCheck (channelID : Int) : State :=
  match s.find channelID with
  | none => s
  | some channel =>
    if decodes renest channel.settings ∧ flagField channel.settings "upstream_model_update_check_enabled" then
      { s with checks := Function.update s.checks name (some { channelID, seen := channel.settings }) }
    else s

def writeCheck (outcome : CheckOutcome) : State :=
  match s.checks name with
  | none => s
  | some check =>
    ({ s with checks := Function.update s.checks name none }).commit
      { id := check.channelID, domain := upstreamModelCheckKeys
        settings := outcome.settings (recode renest check.seen) }

/-! ### Runs -/

inductive Event where
  | updateChannelMonitorSettings (channelID : Int) (r : Request) (fails : Bool)
  | updateAutoPriorityCandidates (candidates : List Candidate) (fails : Bool)
  | readCheck (name : Nat) (channelID : Int)
  | writeCheck (name : Nat) (outcome : CheckOutcome) (fails : Bool)

/-- A transaction that fails, of itself or because a statement of it does, changes nothing. -/
def transaction (fails : Bool) (result : Except String State) : State :=
  match fails, result with
  | false, .ok s' => s'
  | _, _ => s

def step : Event → State
  | .updateChannelMonitorSettings channelID r fails =>
    transaction s fails (updateChannelMonitorSettings renest validateSettings channelID r s)
  | .updateAutoPriorityCandidates candidates fails =>
    transaction s fails (candidates.foldlM updateAutoPriorityCandidate s)
  | .readCheck name channelID => readCheck renest s name channelID
  | .writeCheck name outcome fails => transaction s fails (.ok (writeCheck renest s name outcome))

end

/-- Every key has the value of the last committed write of its own domain. -/
def Faithful : Prop := ∀ r ∈ s.rows, ∀ key, r.settings.lookup key = s.last r.id key

structure Kept : Prop where
  unique : (s.rows.map (·.id)).Nodup
  faithful : Faithful s

/-- The column of a check's channel is what the check read, and encoding the struct gives it back. -/
def InOrder (renest : String → Option String) (s : State) : Event → Prop
  | .writeCheck name _ false =>
    ∀ check ∈ s.checks name, ∀ r ∈ s.rows, r.id = check.channelID →
      r.settings = check.seen ∧ Agree (recode renest check.seen) check.seen
  | _ => True

/-! ### One write -/

theorem Kept.commit {s : State} {w : Write} (h : Kept s)
    (hw : ∀ r ∈ s.rows, r.id = w.id → ∀ key ∉ w.domain, w.settings.lookup key = r.settings.lookup key) :
    Kept (s.commit w) := by
  constructor
  · have hids : (s.commit w).rows.map (·.id) = s.rows.map (·.id) := by
      rw [State.commit, map_map]
      refine map_congr_left fun r _ => ?_
      show (if r.id = w.id then { r with settings := w.settings } else r).id = r.id
      split_ifs <;> rfl
    rw [hids]
    exact h.unique
  · intro r hr key
    obtain ⟨r₀, hr₀, rfl⟩ := mem_map.mp hr
    show (if r₀.id = w.id then _ else r₀).settings.lookup key = _
    by_cases hid : r₀.id = w.id
    · simp only [if_pos hid, State.commit]
      by_cases hkey : key ∈ w.domain
      · rw [if_pos ⟨hid, hkey⟩]
      · rw [if_neg fun hin => hkey hin.2, hw r₀ hr₀ hid key hkey]
        exact h.faithful r₀ hr₀ key
    · simp only [if_neg hid, State.commit]
      rw [if_neg fun hin => hid hin.1]
      exact h.faithful r₀ hr₀ key

theorem Kept.eq_of_find {s : State} (h : Kept s) {id : Int} {row r : Channel} (hfind : s.find id = some row)
    (hr : r ∈ s.rows) (hid : r.id = id) : r = row := by
  have hrow : row.id = id := by simpa using find?_some hfind
  exact inj_on_of_nodup_map h.unique hr (mem_of_find?_eq_some hfind) (hid.trans hrow.symm)

theorem Kept.setPriority {s : State} (h : Kept s) (id : Int) (priority : Option Int) :
    Kept (s.setPriority id priority) := by
  have hrows : ∀ r ∈ (s.setPriority id priority).rows, ∃ r₀ ∈ s.rows, r.id = r₀.id ∧ r.settings = r₀.settings := by
    intro r hr
    obtain ⟨r₀, hr₀, rfl⟩ := mem_map.mp hr
    refine ⟨r₀, hr₀, ?_⟩
    split_ifs <;> exact ⟨rfl, rfl⟩
  constructor
  · have hids : (s.setPriority id priority).rows.map (·.id) = s.rows.map (·.id) := by
      rw [State.setPriority, map_map]
      refine map_congr_left fun r _ => ?_
      show (if r.id = id then { r with priority := priority.getD r.priority } else r).id = r.id
      split_ifs <;> rfl
    rw [hids]
    exact h.unique
  · intro r hr key
    obtain ⟨r₀, hr₀, hid, hsettings⟩ := hrows r hr
    rw [hsettings, hid]
    exact h.faithful r₀ hr₀ key

/-! ### The writers keep the keys of others -/

section

variable {renest : String → Option String} {validateSettings : Obj → Except String Unit}

theorem kept_foldlM {α : Type} {f : State → α → Except String State}
    (hf : ∀ s a s', Kept s → f s a = .ok s' → Kept s') {l : List α} {s s' : State} (h : Kept s)
    (hl : l.foldlM f s = .ok s') : Kept s' := by
  induction l generalizing s with
  | nil =>
    obtain rfl := Except.ok.inj hl
    exact h
  | cons a l ih =>
    rw [foldlM_cons] at hl
    cases hfirst : f s a with
    | error e =>
      rw [hfirst] at hl
      cases hl
    | ok s₁ =>
      rw [hfirst] at hl
      exact ih (hf s a s₁ h hfirst) hl

theorem kept_syncMember (r : Request) (s : State) (id : Int) (s' : State) (h : Kept s)
    (hrun : syncMember renest r s id = .ok s') : Kept s' := by
  rw [syncMember] at hrun
  cases hfind : s.find id with simp only [hfind] at hrun
  | none => exact Except.ok.inj hrun ▸ h
  | some member =>
    split_ifs at hrun with hdecodes henabled
    · exact Except.ok.inj hrun ▸ h
    · obtain rfl := Except.ok.inj hrun
      refine h.commit fun row hrow hid key hkey => ?_
      rw [h.eq_of_find hfind hrow hid]
      exact r.lookup_sync hkey

theorem kept_writeMonitorSettings {r : Request} {s s' : State} {id : Int} {current : Channel} (h : Kept s)
    (hfind : s.find id = some current) (hrun : writeMonitorSettings renest r s current = .ok s') : Kept s' := by
  have hid : current.id = id := by simpa using find?_some hfind
  have hcommit : Kept (s.commit { id := current.id, domain := r.domain current.settings
                                  settings := r.merge current.settings }) := by
    refine h.commit fun row hrow hrowId key hkey => ?_
    rw [h.eq_of_find hfind hrow (hrowId.trans hid)]
    exact r.lookup_merge hkey
  rw [writeMonitorSettings] at hrun
  split_ifs at hrun with hsync
  · exact Except.ok.inj hrun ▸ hcommit
  · exact kept_foldlM (kept_syncMember r) hcommit hrun

theorem bind_ok {α β : Type} {x : Except String α} {f : α → Except String β} {b : β}
    (h : (x >>= f) = .ok b) : ∃ a, f a = .ok b := by
  cases x with
  | error e => cases h
  | ok a => exact ⟨a, h⟩

theorem kept_updateChannelMonitorSettings {channelID : Int} {r : Request} {s s' : State} (h : Kept s)
    (hrun : updateChannelMonitorSettings renest validateSettings channelID r s = .ok s') : Kept s' := by
  rw [updateChannelMonitorSettings] at hrun
  split_ifs at hrun with hrequested hscope
  cases hfind : s.find channelID with
  | none => simp [hfind] at hrun
  | some current =>
    simp only [hfind] at hrun
    split_ifs at hrun with hdecodes
    obtain ⟨_, hmerged⟩ := bind_ok hrun
    obtain ⟨_, hvalidate⟩ := bind_ok hmerged
    obtain ⟨_, hwrite⟩ := bind_ok hvalidate
    exact kept_writeMonitorSettings h hfind hwrite

theorem kept_updateAutoPriorityCandidate (s : State) (c : Candidate) (s' : State) (h : Kept s)
    (hrun : updateAutoPriorityCandidate s c = .ok s') : Kept s' := by
  rw [updateAutoPriorityCandidate] at hrun
  cases hfind : s.find c.channelID with
  | none => simp [hfind] at hrun
  | some current =>
    simp only [hfind] at hrun
    split_ifs at hrun with hsame
    obtain rfl := Except.ok.inj hrun
    refine Kept.setPriority (h.commit fun row hrow hid key hkey => ?_) _ _
    rw [h.eq_of_find hfind hrow hid, agree_iff.mp hsame.2.2 key]
    exact (lookup_replaceKeys _ _ _ _).trans (if_neg hkey)

theorem kept_writeCheck {s : State} {name : Nat} {outcome : CheckOutcome} (h : Kept s)
    (hok : InOrder renest s (.writeCheck name outcome false)) : Kept (writeCheck renest s name outcome) := by
  rw [writeCheck]
  cases hcheck : s.checks name with
  | none => exact h
  | some check =>
    have hcleared : Kept { s with checks := Function.update s.checks name none } := ⟨h.unique, h.faithful⟩
    refine hcleared.commit fun row hrow hid key hkey => ?_
    obtain ⟨hsettings, hagree⟩ := hok check hcheck row hrow hid
    rw [hsettings, ← hagree key]
    exact outcome.lookup_settings hkey

theorem kept_transaction {s : State} {fails : Bool} {result : Except String State} (h : Kept s)
    (hresult : ∀ s', fails = false → result = .ok s' → Kept s') : Kept (transaction s fails result) := by
  cases fails with
  | true => exact h
  | false =>
    cases result with
    | error e => exact h
    | ok s' => exact hresult s' rfl rfl

theorem kept_step (s : State) (e : Event) (h : Kept s) (hok : InOrder renest s e) :
    Kept (step renest validateSettings s e) := by
  cases e with
  | updateChannelMonitorSettings channelID r fails =>
    exact kept_transaction h fun s' _ hrun => kept_updateChannelMonitorSettings h hrun
  | updateAutoPriorityCandidates candidates fails =>
    exact kept_transaction h fun s' _ hrun => kept_foldlM kept_updateAutoPriorityCandidate h hrun
  | readCheck name channelID =>
    rw [step, readCheck]
    cases s.find channelID with
    | none => exact h
    | some channel =>
      dsimp only
      split_ifs
      · exact ⟨h.unique, h.faithful⟩
      · exact h
  | writeCheck name outcome fails =>
    refine kept_transaction h fun s' hfails hrun => ?_
    subst hfails
    obtain rfl := Except.ok.inj hrun
    exact kept_writeCheck h hok

def init (rows : List Channel) : State where
  rows := rows
  last := fun id key => (rows.find? fun r => r.id = id).bind fun r => r.settings.lookup key
  checks := fun _ => none

theorem kept_init {rows : List Channel} (h : (rows.map (·.id)).Nodup) : Kept (init rows) := by
  refine ⟨h, fun r hr key => ?_⟩
  have hfind : (rows.find? fun r' => r'.id = r.id) = some r := by
    cases hcase : rows.find? fun r' => r'.id = r.id with
    | none => exact absurd (find?_eq_none.mp hcase r hr) (by simp)
    | some r' =>
      have hid : r'.id = r.id := by simpa using find?_some hcase
      rw [inj_on_of_nodup_map h (mem_of_find?_eq_some hcase) hr hid]
  show _ = (rows.find? fun r' => r'.id = r.id).bind _
  rw [hfind]
  rfl

/-- **Writers keep each other's keys**: over any interleaving of the three writers, if every check that writes
finds the column as it read it, in the form that the struct encodes, then each key always has the value of
the last committed write of its own domain. -/
theorem settings_kept (rows : List Channel) (hids : (rows.map (·.id)).Nodup) (es : List Event)
    (hok : Along (step renest validateSettings) (InOrder renest) (init rows) es) :
    Faithful (run (step renest validateSettings) (init rows) es) :=
  (run_inv (I := Kept) kept_step (kept_init hids) hok).faithful

end

/-! ### A check that reverts a change -/

def checked : Channel where
  id := 1
  group := "default"
  status := 1
  priority := 0
  settings := AList.insert "upstream_model_update_check_enabled" (.bool true) ∅

def monitorOn : Request where
  requested := (AList.insert "channel_monitor_interval_minutes" (.num 5)
    (AList.insert "channel_monitor_enabled" (.bool true) ∅))
  scope := "monitor"

def found : CheckOutcome where
  now := 100
  fetched := some (["m"], [])
  allowAutoApply := false

/-- A check reads its row and writes it, and the monitor is switched on after it. -/
theorem monitor_after_check : Faithful (run (step some fun _ => .ok ()) (init [checked])
      [.readCheck 0 1, .writeCheck 0 found false, .updateChannelMonitorSettings 1 monitorOn false]) := by
  refine settings_kept [checked] (by decide) _ ⟨trivial, ?_, trivial, trivial⟩
  intro check hcheck r hr _
  obtain rfl : checked = r := (List.mem_singleton.mp hr).symm
  obtain rfl : ({ channelID := 1, seen := checked.settings } : Check) = check := Option.some.inj hcheck
  exact ⟨rfl, agree_iff.mp (by decide +kernel)⟩

/-- The monitor is switched on while the check fetches; the check switches it off again. -/
theorem check_reverts_monitor :
    let s := run (step some fun _ => .ok ()) (init [checked])
      [.readCheck 0 1, .updateChannelMonitorSettings 1 monitorOn false, .writeCheck 0 found false]
    s.last 1 "channel_monitor_enabled" = some (.bool true) ∧
      s.rows.map (fun r => (r.id, r.settings.lookup "channel_monitor_enabled")) = [(1, none)] ∧
      ¬ Faithful s := by
  intro s
  have hlast : s.last 1 "channel_monitor_enabled" = some (.bool true) := by decide +kernel
  have hrows : s.rows.map (fun r => (r.id, r.settings.lookup "channel_monitor_enabled")) = [(1, none)] := by
    decide +kernel
  refine ⟨hlast, hrows, fun hfaithful => ?_⟩
  have hmem : (1, none) ∈ s.rows.map (fun r => (r.id, r.settings.lookup "channel_monitor_enabled")) := by
    rw [hrows]
    exact List.mem_singleton.mpr rfl
  obtain ⟨r, hr, heq⟩ := List.mem_map.mp hmem
  obtain ⟨hid, hnone⟩ := Prod.mk.inj heq
  have hvalue := hfaithful r hr "channel_monitor_enabled"
  rw [hid, hnone, hlast] at hvalue
  cases hvalue

end WynthApi.Store.SettingsWriters
