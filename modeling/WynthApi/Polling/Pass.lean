import WynthApi.Lib.Multimap
import WynthApi.Lib.Run
import WynthApi.Polling.Update

/-!
# One polling pass over the tasks of a platform (service/task_polling.go)

The pass regroups its tasks through two maps: `taskM` from upstream ids to tasks, where the last task of an id stays,
and `taskChannelM` from channels to the upstream ids to ask for.  The workers of the channels then find their tasks
through `taskM`, which does not know about channels.  So a row can be updated from another channel's response: by the
video workers as soon as two channels use one id, by the Suno workers as soon as there are two channels.  Here are the
conditions under which this does not happen; `Polling.PassExact` shows that they are needed.

A pass is one list of events.  What the environment decides is in the visits: the order of the workers, the responses,
and the stored row that an update meets.
-/

namespace WynthApi.Polling

open Store StepSys List AList

/-! ### Regrouping -/

structure PassMaps where
  taskM : AList fun _ : String => Task
  taskChannelM : Multimap Int String
  nullTaskIds : List Int

/-- The loop body of `RunTaskPollingOnce` over the tasks of a platform. -/
def PassMaps.add (m : PassMaps) (task : Task) : PassMaps :=
  let upstreamID := task.getUpstreamTaskID
  if upstreamID = "" then { m with nullTaskIds := m.nullTaskIds ++ [task.id] }
  else { m with
    taskM := m.taskM.insert upstreamID task
    taskChannelM := m.taskChannelM.push task.channelId upstreamID }

def regroup (tasks : List Task) : PassMaps := tasks.foldl PassMaps.add ⟨∅, ∅, []⟩

/-! ### Workers -/

/-- What a pass does to the outside: it asks a channel about an upstream id, it updates a row (with the
channel in the row) from a channel's response, or it fails rows without asking. -/
inductive Event where
  | query (channelId : Int) (upstreamID : String)
  | update (channelId rowId rowChannelId : Int)
  | bulkFail (rowIds : List Int) (failReason : Option String)
  deriving DecidableEq

/-- The outcome of `CacheGetChannel` for each channel, and whether the platform has an adaptor. -/
structure PassEnv where
  buildProxyURL : String → String
  channelFound : Int → Bool
  adaptorFound : Bool

variable (env : PassEnv)

def PassEnv.reachable (channelId : Int) : Bool :=
  env.channelFound channelId && env.adaptorFound

structure PassState where
  taskM : AList fun _ : String => Task
  trace : List Event

namespace PassState

def ask (s : PassState) (channelId : Int) (ids : List String) : PassState :=
  { s with trace := s.trace ++ ids.map (.query channelId) }

/-- The outcome of one task: its copy changes, and a guarded update that matched has updated its
row. -/
def record (s : PassState) (channelId : Int) (id : String) (task : Task) (o : Outcome) : PassState :=
  { taskM := s.taskM.insert id o.copy
    trace := s.trace ++ if o.won then [.update channelId task.id task.channelId] else [] }

end PassState

/-- One turn of a channel's worker in `updateVideoTasks`. -/
structure VideoVisit where
  channelId : Int
  taskId : String
  answer : VideoAnswer
  now : Int
  row : Task
  fault : Fault

def videoVisit (s : PassState) (v : VideoVisit) : PassState :=
  match s.taskM.lookup v.taskId with
  | none => s
  | some task =>
    (s.ask v.channelId [task.getUpstreamTaskID]).record v.channelId v.taskId task
      (updateVideoSingleTask env.buildProxyURL v.row task v.answer v.now v.fault)

structure SunoReply where
  taskID : String
  item : SunoItem
  row : Task
  fault : Fault

/-- The call of `updateSunoTasks` for one channel; a response that is not usable has no items. -/
structure SunoVisit where
  channelId : Int
  replies : List SunoReply

def sunoReply (channelId : Int) (s : PassState) (r : SunoReply) : PassState :=
  match s.taskM.lookup r.taskID with
  | none => s
  | some task => s.record channelId r.taskID task (updateSunoTask r.row task r.item r.fault)

variable (maps : PassMaps)

def sunoVisit (s : PassState) (v : SunoVisit) : PassState :=
  run (sunoReply v.channelId) (s.ask v.channelId (maps.taskChannelM.get v.channelId)) v.replies

/-! ### The pass -/

/-- The visits of a pass; only those of the platform's own kind are made. -/
structure Answers where
  video : List VideoVisit
  suno : List SunoVisit

/-- The bulk updates for channels that are not found; the rows come from `taskM`. -/
def missingChannels (reason : Int → String) : List Event :=
  (maps.taskChannelM.keys.filter fun c => !env.channelFound c).map fun c =>
    .bulkFail ((maps.taskChannelM.get c).filterMap fun id => (maps.taskM.lookup id).map Task.id)
      (some (reason c))

def updateSunoTasks (visits : List SunoVisit) : List Event :=
  missingChannels env maps (fun c => s!"获取渠道信息失败，请联系管理员，渠道ID：{c}") ++
    (run (sunoVisit maps) ⟨maps.taskM, []⟩ visits).trace

def updateVideoTasks (visits : List VideoVisit) : List Event :=
  missingChannels env maps (fun c => s!"Failed to get channel info, channel ID: {c}") ++
    (run (videoVisit env) ⟨maps.taskM, []⟩ visits).trace

variable (platform : TaskPlatform)

def dispatchPlatformUpdate (maps : PassMaps)
    (answers : Answers) : List Event :=
  match platform with
  | .midjourney => []
  | .suno => updateSunoTasks env maps answers.suno
  | .video _ => updateVideoTasks env maps answers.video

/-- The body of `RunTaskPollingOnce` for the tasks of one platform. -/
def pollPlatform (tasks : List Task) (answers : Answers) :
    List Event :=
  let maps := regroup tasks
  (if maps.nullTaskIds.isEmpty then [] else [.bulkFail maps.nullTaskIds none]) ++
    if maps.taskChannelM.entries.isEmpty then []
    else dispatchPlatformUpdate env platform maps answers

/-- The video workers run at the same time: each reachable channel goes through its ids in order, and
the turns of different channels come in any order. -/
def VideoSchedule (visits : List VideoVisit) : Prop :=
  (∀ v ∈ visits, v.channelId ∈ maps.taskChannelM.keys) ∧
    ∀ c ∈ maps.taskChannelM.keys, (visits.filter fun v => v.channelId = c).map VideoVisit.taskId =
      if env.reachable c then maps.taskChannelM.get c else []
  deriving Decidable

/-- The Suno channels come one after the other, in the order the map gives them. -/
def SunoSchedule (visits : List SunoVisit) : Prop :=
  (visits.map SunoVisit.channelId).Perm (maps.taskChannelM.keys.filter env.reachable)

def Answers.Valid (maps : PassMaps) (answers : Answers) : Prop :=
  match platform with
  | .midjourney => True
  | .suno => SunoSchedule env maps answers.suno
  | .video _ => VideoSchedule env maps answers.video

/-- Every task with an upstream id is asked for at its own channel under its own id, nothing else is
asked for, and a channel's response updates rows of that channel only. -/
structure PassRight (tasks : List Task) (trace : List Event) : Prop where
  queried : ∀ t ∈ tasks, t.getUpstreamTaskID ≠ "" →
    .query t.channelId t.getUpstreamTaskID ∈ trace
  own : ∀ c id, .query c id ∈ trace → ∃ t ∈ tasks, t.channelId = c ∧ t.getUpstreamTaskID = id
  updates : ∀ c rowId rowChannelId, .update c rowId rowChannelId ∈ trace → rowChannelId = c

def AllReachable (tasks : List Task) : Prop :=
  ∀ t ∈ tasks, t.getUpstreamTaskID ≠ "" → env.reachable t.channelId = true
  deriving Decidable

def OneChannelPerId (tasks : List Task) : Prop :=
  ∀ t ∈ tasks, ∀ t' ∈ tasks, t.getUpstreamTaskID ≠ "" →
    t.getUpstreamTaskID = t'.getUpstreamTaskID → t.channelId = t'.channelId
  deriving Decidable

def OneChannel (tasks : List Task) : Prop :=
  ∀ t ∈ tasks, ∀ t' ∈ tasks, t.getUpstreamTaskID ≠ "" → t'.getUpstreamTaskID ≠ "" →
    t.channelId = t'.channelId

def PassSafe (tasks : List Task) : Prop :=
  match platform with
  | .midjourney => ∀ t ∈ tasks, t.getUpstreamTaskID = ""
  | .suno => AllReachable env tasks ∧ OneChannel tasks
  | .video _ => AllReachable env tasks ∧ OneChannelPerId tasks

/-! ### What the maps hold -/

section Maps

variable {tasks : List Task} {t : Task} {c : Int} {id : String}

theorem regroup_concat (tasks : List Task) (t : Task) : regroup (tasks ++ [t]) = (regroup tasks).add t := by
  simp [regroup, foldl_append]

variable (m : PassMaps)

theorem add_null (h : t.getUpstreamTaskID = "") :
    (m.add t).taskM = m.taskM ∧ (m.add t).taskChannelM = m.taskChannelM := by
  unfold PassMaps.add
  dsimp only
  rw [if_pos h]
  exact ⟨rfl, rfl⟩

theorem add_keyed (h : t.getUpstreamTaskID ≠ "") : (m.add t).taskM = m.taskM.insert t.getUpstreamTaskID t ∧
      (m.add t).taskChannelM = m.taskChannelM.push t.channelId t.getUpstreamTaskID := by
  unfold PassMaps.add
  dsimp only
  rw [if_neg h]
  exact ⟨rfl, rfl⟩

theorem lookup_taskM (h : (regroup tasks).taskM.lookup id = some t) :
    t ∈ tasks ∧ t.getUpstreamTaskID = id ∧ id ≠ "" := by
  induction tasks using reverseRecOn with
  | nil => cases h
  | append_singleton tasks t' ih =>
    rw [regroup_concat] at h
    have hold : (regroup tasks).taskM.lookup id = some t → t ∈ tasks ++ [t'] ∧ t.getUpstreamTaskID = id ∧ id ≠ "" := by
      intro hlookup
      obtain ⟨hmem, hid⟩ := ih hlookup
      exact ⟨mem_append_left [t'] hmem, hid⟩
    by_cases hnull : t'.getUpstreamTaskID = ""
    · rw [(add_null _ hnull).1] at h
      exact hold h
    rw [(add_keyed _ hnull).1] at h
    by_cases hid : id = t'.getUpstreamTaskID
    · -- the later task of an id replaces the earlier one
      rw [hid, lookup_insert] at h
      obtain rfl : t' = t := Option.some.inj h
      exact ⟨by simp, hid.symm, hid ▸ hnull⟩
    · rw [lookup_insert_ne hid] at h
      exact hold h

theorem mem_taskM (hmem : t ∈ tasks) (hid : t.getUpstreamTaskID ≠ "") :
    t.getUpstreamTaskID ∈ (regroup tasks).taskM := by
  induction tasks using reverseRecOn with
  | nil => cases hmem
  | append_singleton tasks t' ih =>
    rw [regroup_concat]
    rcases mem_append.mp hmem with hmem | hmem
    · by_cases hnull : t'.getUpstreamTaskID = ""
      · rw [(add_null _ hnull).1]
        exact ih hmem
      · rw [(add_keyed _ hnull).1]
        exact (mem_insert _).mpr (.inr (ih hmem))
    · obtain rfl : t = t' := mem_singleton.mp hmem
      rw [(add_keyed _ hid).1]
      exact (mem_insert _).mpr (.inl rfl)

theorem exists_mem_concat {P : Task → Prop} {t' : Task} : (∃ t ∈ tasks ++ [t'], P t) ↔ (∃ t ∈ tasks, P t) ∨ P t' := by
  simp [or_and_right, exists_or]

theorem mem_taskChannelM : id ∈ (regroup tasks).taskChannelM.get c ↔
    ∃ t ∈ tasks, t.channelId = c ∧ t.getUpstreamTaskID = id ∧ id ≠ "" := by
  induction tasks using reverseRecOn with
  | nil => simp [regroup]
  | append_singleton tasks t' ih =>
    rw [regroup_concat, exists_mem_concat]
    by_cases hnull : t'.getUpstreamTaskID = ""
    · rw [(add_null _ hnull).2, ih]
      refine (or_iff_left ?_).symm
      rintro ⟨-, hid, hne⟩
      exact hne (hid.symm.trans hnull)
    · rw [(add_keyed _ hnull).2, Multimap.mem_get_push, ih]
      refine or_congr_right ⟨?_, ?_⟩
      · rintro ⟨rfl, rfl⟩
        exact ⟨rfl, rfl, hnull⟩
      · rintro ⟨hc, hid, -⟩
        exact ⟨hc.symm, hid.symm⟩

theorem mem_channels : c ∈ (regroup tasks).taskChannelM.keys ↔
    ∃ t ∈ tasks, t.channelId = c ∧ t.getUpstreamTaskID ≠ "" := by
  rw [← AList.mem_keys]
  induction tasks using List.reverseRecOn with
  | nil => simp [regroup]
  | append_singleton tasks t' ih =>
    rw [regroup_concat, exists_mem_concat]
    by_cases hnull : t'.getUpstreamTaskID = ""
    · rw [(add_null _ hnull).2, ih]
      exact (or_iff_left fun h => h.2 hnull).symm
    · rw [(add_keyed _ hnull).2, Multimap.push, mem_insert, ih, or_comm]
      exact or_congr_right ⟨fun hc => ⟨hc.symm, hnull⟩, fun h => h.1.symm⟩

end Maps

/-! ### What every turn keeps -/

def Asks (tasks : List Task) (c : Int) (id : String) : Prop :=
  ∃ t ∈ tasks, t.channelId = c ∧ t.getUpstreamTaskID = id ∧ id ≠ ""

/-- The copies in memory are those of the list, and only reachable channels were asked, for ids of
their own tasks. -/
structure PassInv (tasks : List Task) (s : PassState) : Prop where
  copies : ∀ id t, s.taskM.lookup id = some t →
    ∃ t₀ ∈ tasks, t₀.getUpstreamTaskID = id ∧ id ≠ "" ∧ t.SameBilling t₀
  present : ∀ t ∈ tasks, t.getUpstreamTaskID ≠ "" → t.getUpstreamTaskID ∈ s.taskM
  queries : ∀ c id, .query c id ∈ s.trace → env.reachable c = true ∧ Asks tasks c id

def UpdatesRight (s : PassState) : Prop :=
  ∀ c rowId rowChannelId, .update c rowId rowChannelId ∈ s.trace → rowChannelId = c

section Turn

variable {env : PassEnv} {tasks : List Task} {s : PassState} {c : Int} {id : String} {ids : List String}
  {task : Task} {o : Outcome}

theorem passInv_start (env : PassEnv) (tasks : List Task) : PassInv env tasks ⟨(regroup tasks).taskM, []⟩ := by
  refine ⟨fun id t h => ?_, fun t hmem hid => mem_taskM hmem hid, fun c id h => by cases h⟩
  obtain ⟨hmem, hid, hne⟩ := lookup_taskM h
  exact ⟨t, hmem, hid, hne, .refl t⟩

theorem PassInv.ask (h : PassInv env tasks s) (hreach : env.reachable c = true)
    (hids : ∀ id ∈ ids, Asks tasks c id) : PassInv env tasks (s.ask c ids) := by
  refine ⟨h.copies, h.present, fun c' id' hq => ?_⟩
  rcases mem_append.mp hq with hq | hq
  · exact h.queries c' id' hq
  · obtain ⟨id, hid, heq⟩ := mem_map.mp hq
    cases heq
    exact ⟨hreach, hids _ hid⟩

theorem PassInv.record (h : PassInv env tasks s) (hlookup : s.taskM.lookup id = some task)
    (hsame : o.copy.SameBilling task) : PassInv env tasks (s.record c id task o) := by
  refine ⟨fun id' t ht => ?_, fun t hmem hid => ?_, fun c' id' hq => ?_⟩
  · by_cases heq : id' = id
    · subst heq
      have hcopy : o.copy = t := by
        have hinsert : (s.taskM.insert id' o.copy).lookup id' = some t := ht
        rw [lookup_insert] at hinsert
        exact Option.some.inj hinsert
      obtain ⟨t₀, hmem, hid, hne, hsame₀⟩ := h.copies id' task hlookup
      rw [← hcopy]
      exact ⟨t₀, hmem, hid, hne, hsame.trans hsame₀⟩
    · have hold : (s.taskM.insert id o.copy).lookup id' = some t := ht
      rw [lookup_insert_ne heq] at hold
      exact h.copies id' t hold
  · exact (mem_insert _).mpr (.inr (h.present t hmem hid))
  · rcases mem_append.mp hq with hq | hq
    · exact h.queries c' id' hq
    · split_ifs at hq
      · simp at hq
      · cases hq

theorem UpdatesRight.ask (h : UpdatesRight s) : UpdatesRight (s.ask c ids) := by
  intro c' rowId rowChannelId hu
  rcases mem_append.mp hu with hu | hu
  · exact h c' rowId rowChannelId hu
  · simp at hu

theorem UpdatesRight.record (h : UpdatesRight s) (howner : task.channelId = c) :
    UpdatesRight (s.record c id task o) := by
  intro c' rowId rowChannelId hu
  rcases mem_append.mp hu with hu | hu
  · exact h c' rowId rowChannelId hu
  · split_ifs at hu
    · simp only [mem_singleton, Event.update.injEq] at hu
      obtain ⟨rfl, -, rfl⟩ := hu
      exact howner
    · cases hu

def Extends (s s' : PassState) : Prop := s.trace ⊆ s'.trace

theorem extends_refl (s : PassState) : Extends s s := fun _ h => h

theorem extends_trans (s t u : PassState) (h₁ : Extends s t) (h₂ : Extends t u) : Extends s u :=
  fun _ h => h₂ (h₁ h)

theorem extends_ask (s : PassState) (c : Int) (ids : List String) : Extends s (s.ask c ids) :=
  fun _ h => mem_append_left _ h

theorem extends_record (s : PassState) (c : Int) (id : String) (task : Task) (o : Outcome) :
    Extends s (s.record c id task o) :=
  fun _ h => mem_append_left _ h

variable {α : Type} {step : PassState → α → PassState}

theorem extends_run (h : ∀ s a, Extends s (step s a)) (s : PassState) (as : List α) : Extends s (run step s as) :=
  run_rel (I := fun _ => True) extends_refl extends_trans (fun s a _ _ => ⟨trivial, h s a⟩) trivial
    (along_of_forall (P := fun _ => True) (fun _ _ => trivial) s)

theorem updatesRight_run {P : α → Prop} (hinv : ∀ s a, PassInv env tasks s → P a → PassInv env tasks (step s a))
    (hupdates : ∀ s a, PassInv env tasks s → P a → UpdatesRight s → UpdatesRight (step s a))
    (h : PassInv env tasks s) (hu : UpdatesRight s) {as : List α} (has : ∀ a ∈ as, P a) :
    UpdatesRight (run step s as) := by
  have hboth : PassInv env tasks (run step s as) ∧ UpdatesRight (run step s as) := by
    refine run_inv (I := fun s => PassInv env tasks s ∧ UpdatesRight s) ?_ ⟨h, hu⟩ (along_of_forall has s)
    intro s a hs ha
    exact ⟨hinv s a hs.1 ha, hupdates s a hs.1 ha hs.2⟩
  exact hboth.2

theorem updatesRight_start (tasks : List Task) : UpdatesRight ⟨(regroup tasks).taskM, []⟩ :=
  fun _ _ _ h => absurd h not_mem_nil

end Turn

/-! ### The video workers -/

section Video

variable {env : PassEnv} {tasks : List Task} {s : PassState}

def VideoVisit.Proper (env : PassEnv) (tasks : List Task) (v : VideoVisit) : Prop :=
  env.reachable v.channelId = true ∧ Asks tasks v.channelId v.taskId

variable {visits : List VideoVisit}

theorem videoSchedule_proper (h : VideoSchedule env (regroup tasks) visits) : ∀ v ∈ visits, v.Proper env tasks := by
  intro v hv
  have hids := h.2 v.channelId (h.1 v hv)
  have hmem : v.taskId ∈ (visits.filter fun w => w.channelId = v.channelId).map VideoVisit.taskId :=
    mem_map.mpr ⟨v, mem_filter.mpr ⟨hv, by simp⟩, rfl⟩
  rw [hids] at hmem
  split_ifs at hmem with hreach
  · exact ⟨hreach, mem_taskChannelM.mp hmem⟩
  · cases hmem

theorem videoVisit_extends (s : PassState) (v : VideoVisit) : Extends s (videoVisit env s v) := by
  unfold videoVisit
  cases s.taskM.lookup v.taskId with
  | none => exact extends_refl s
  | some task => exact extends_trans _ _ _ (extends_ask s _ _) (extends_record _ _ _ _ _)

theorem videoVisit_inv (s : PassState) (v : VideoVisit) (h : PassInv env tasks s)
    (hv : v.Proper env tasks) : PassInv env tasks (videoVisit env s v) := by
  unfold videoVisit
  cases hlookup : s.taskM.lookup v.taskId with
  | none => exact h
  | some task =>
    obtain ⟨t₀, -, hid, -, hsame⟩ := h.copies v.taskId task hlookup
    have hasked : ∀ id ∈ [task.getUpstreamTaskID], Asks tasks v.channelId id := by
      intro id hmem
      rw [mem_singleton.mp hmem, hsame.upstreamTaskID, hid]
      exact hv.2
    exact (h.ask hv.1 hasked).record hlookup (video_guarded _ _ _ _ _ _).1.same

variable {v : VideoVisit}

theorem videoVisit_query (h : PassInv env tasks s) (hv : v.Proper env tasks) :
    .query v.channelId v.taskId ∈ (videoVisit env s v).trace := by
  obtain ⟨-, t, hmem, -, hid, hne⟩ := hv
  have hpresent := h.present t hmem (hid ▸ hne)
  rw [hid, ← lookup_isSome, Option.isSome_iff_exists] at hpresent
  obtain ⟨task, hlookup⟩ := hpresent
  obtain ⟨t₀, -, hid₀, -, hsame⟩ := h.copies v.taskId task hlookup
  unfold videoVisit
  rw [hlookup]
  refine extends_record _ _ _ _ _ (mem_append_right _ ?_)
  rw [hsame.upstreamTaskID, hid₀]
  exact mem_singleton.mpr rfl

theorem videoVisit_updates (h : PassInv env tasks s) (hv : v.Proper env tasks)
    (hsafe : OneChannelPerId tasks) (hu : UpdatesRight s) : UpdatesRight (videoVisit env s v) := by
  unfold videoVisit
  cases hlookup : s.taskM.lookup v.taskId with
  | none => exact hu
  | some task =>
    obtain ⟨t₀, hmem₀, hid₀, -, hsame⟩ := h.copies v.taskId task hlookup
    obtain ⟨-, t, hmem, hc, hid, hne⟩ := hv
    refine hu.ask.record ?_
    rw [hsame.channelId, ← hc]
    exact hsafe t₀ hmem₀ t hmem (hid₀ ▸ hne) (hid₀.trans hid.symm)

theorem video_run_inv (hvisits : ∀ v ∈ visits, v.Proper env tasks) (h : PassInv env tasks s) :
    PassInv env tasks (run (videoVisit env) s visits) :=
  run_inv videoVisit_inv h (along_of_forall hvisits s)

/-- **Run**: under the condition, the video workers ask for every task and update its row only. -/
theorem updateVideoTasks_right (hreach : AllReachable env tasks) (hsafe : OneChannelPerId tasks)
    (hsched : VideoSchedule env (regroup tasks) visits) :
    PassRight tasks (run (videoVisit env) ⟨(regroup tasks).taskM, []⟩ visits).trace := by
  have hproper := videoSchedule_proper hsched
  have hstart := passInv_start env tasks
  refine ⟨fun t hmem hid => ?_, fun c id hq => ?_, ?_⟩
  · have hc : t.channelId ∈ (regroup tasks).taskChannelM.keys := mem_channels.mpr ⟨t, hmem, rfl, hid⟩
    have hasks : t.getUpstreamTaskID ∈ (regroup tasks).taskChannelM.get t.channelId :=
      mem_taskChannelM.mpr ⟨t, hmem, rfl, rfl, hid⟩
    have hturns := hsched.2 t.channelId hc
    rw [if_pos (hreach t hmem hid)] at hturns
    rw [← hturns] at hasks
    obtain ⟨v, hv, hvid⟩ := mem_map.mp hasks
    obtain ⟨hv, hvc⟩ := mem_filter.mp hv
    have hvc' : v.channelId = t.channelId := by simpa using hvc
    obtain ⟨s', hs', -, hext⟩ := run_through extends_refl extends_trans
      (fun s v h hv => ⟨videoVisit_inv s v h hv, videoVisit_extends s v⟩) hstart (along_of_forall hproper _) v hv
    rw [← hvc', ← hvid]
    exact hext (videoVisit_query hs' (hproper v hv))
  · obtain ⟨-, t, hmem, hc, hid, -⟩ := (video_run_inv hproper hstart).queries c id hq
    exact ⟨t, hmem, hc, hid⟩
  · exact updatesRight_run videoVisit_inv (fun s v hs hv hu => videoVisit_updates hs hv hsafe hu) hstart
      (updatesRight_start tasks) hproper

end Video

/-! ### The Suno workers -/

section Suno

variable {env : PassEnv} {tasks : List Task} {s : PassState} {c : Int}

def SunoVisit.Proper (env : PassEnv) (tasks : List Task) (v : SunoVisit) : Prop :=
  env.reachable v.channelId = true ∧ ∃ t ∈ tasks, t.channelId = v.channelId ∧ t.getUpstreamTaskID ≠ ""

def Owned (tasks : List Task) (c : Int) (id : String) : Prop :=
  ∀ t ∈ tasks, t.getUpstreamTaskID = id → id ≠ "" → t.channelId = c

variable {visits : List SunoVisit}

theorem sunoSchedule_proper (h : SunoSchedule env (regroup tasks) visits) : ∀ v ∈ visits, v.Proper env tasks := by
  intro v hv
  have hmem := h.subset (mem_map_of_mem hv)
  obtain ⟨hkey, hreach⟩ := mem_filter.mp hmem
  exact ⟨hreach, mem_channels.mp hkey⟩

theorem sunoReply_extends (s : PassState) (r : SunoReply) : Extends s (sunoReply c s r) := by
  unfold sunoReply
  cases s.taskM.lookup r.taskID with
  | none => exact extends_refl s
  | some task => exact extends_record s _ _ _ _

theorem sunoReply_inv (s : PassState) (r : SunoReply) (h : PassInv env tasks s) :
    PassInv env tasks (sunoReply c s r) := by
  unfold sunoReply
  cases hlookup : s.taskM.lookup r.taskID with
  | none => exact h
  | some task => exact h.record hlookup (suno_guarded _ _ _ _).1.same

theorem sunoReply_updates {r : SunoReply} (h : PassInv env tasks s) (howned : Owned tasks c r.taskID)
    (hu : UpdatesRight s) : UpdatesRight (sunoReply c s r) := by
  unfold sunoReply
  cases hlookup : s.taskM.lookup r.taskID with
  | none => exact hu
  | some task =>
    obtain ⟨t₀, hmem, hid, hne, hsame⟩ := h.copies r.taskID task hlookup
    refine hu.record ?_
    rw [hsame.channelId]
    exact howned t₀ hmem hid hne

theorem sunoVisit_ask (v : SunoVisit) (h : PassInv env tasks s) (hv : v.Proper env tasks) :
    PassInv env tasks (s.ask v.channelId ((regroup tasks).taskChannelM.get v.channelId)) :=
  h.ask hv.1 fun _ hid => mem_taskChannelM.mp hid

theorem sunoVisit_extends (maps : PassMaps) (s : PassState) (v : SunoVisit) :
    Extends (s.ask v.channelId (maps.taskChannelM.get v.channelId)) (sunoVisit maps s v) :=
  extends_run sunoReply_extends _ v.replies

theorem sunoVisit_inv (s : PassState) (v : SunoVisit) (h : PassInv env tasks s)
    (hv : v.Proper env tasks) : PassInv env tasks (sunoVisit (regroup tasks) s v) :=
  run_inv (fun s r hs _ => sunoReply_inv s r hs) (sunoVisit_ask v h hv)
    (along_of_forall (P := fun _ => True) (fun _ _ => trivial) _)

theorem sunoVisit_updates {v : SunoVisit} (h : PassInv env tasks s) (hv : v.Proper env tasks)
    (howned : ∀ r ∈ v.replies, Owned tasks v.channelId r.taskID) (hu : UpdatesRight s) :
    UpdatesRight (sunoVisit (regroup tasks) s v) := by
  exact updatesRight_run (fun s r hs _ => sunoReply_inv s r hs)
    (fun s r hs hr hu => sunoReply_updates hs hr hu) (sunoVisit_ask v h hv) hu.ask howned

theorem suno_run_inv (hvisits : ∀ v ∈ visits, v.Proper env tasks) (h : PassInv env tasks s) :
    PassInv env tasks (run (sunoVisit (regroup tasks)) s visits) :=
  run_inv sunoVisit_inv h (along_of_forall hvisits s)

/-- **Run**: the Suno workers ask for every task, and update the rows of the answering channel if
responses name only ids that belong to it. -/
theorem updateSunoTasks_right (hreach : AllReachable env tasks) (hsched : SunoSchedule env (regroup tasks) visits)
    (howned : ∀ v ∈ visits, ∀ r ∈ v.replies, Owned tasks v.channelId r.taskID) :
    PassRight tasks (run (sunoVisit (regroup tasks)) ⟨(regroup tasks).taskM, []⟩ visits).trace := by
  have hproper := sunoSchedule_proper hsched
  have hstart := passInv_start env tasks
  refine ⟨fun t hmem hid => ?_, fun c id hq => ?_, ?_⟩
  · have hc : t.channelId ∈ (regroup tasks).taskChannelM.keys.filter env.reachable :=
      mem_filter.mpr ⟨mem_channels.mpr ⟨t, hmem, rfl, hid⟩, hreach t hmem hid⟩
    obtain ⟨v, hv, hvc⟩ := mem_map.mp (hsched.symm.subset hc)
    obtain ⟨s', -, -, hext⟩ := run_through extends_refl extends_trans (fun s v h hv => ⟨sunoVisit_inv s v h hv,
        extends_trans _ _ _ (extends_ask s _ _) (sunoVisit_extends _ s v)⟩) hstart (along_of_forall hproper _) v hv
    have hasks : t.getUpstreamTaskID ∈ (regroup tasks).taskChannelM.get v.channelId :=
      mem_taskChannelM.mpr ⟨t, hmem, hvc.symm, rfl, hid⟩
    rw [← hvc]
    exact hext (sunoVisit_extends _ s' v (mem_append_right _ (mem_map_of_mem hasks)))
  · obtain ⟨-, t, hmem, hc, hid, -⟩ := (suno_run_inv hproper hstart).queries c id hq
    exact ⟨t, hmem, hc, hid⟩
  · have hall : ∀ v ∈ visits, v.Proper env tasks ∧ ∀ r ∈ v.replies, Owned tasks v.channelId r.taskID :=
      fun v hv => ⟨hproper v hv, howned v hv⟩
    exact updatesRight_run (fun s v hs hv => sunoVisit_inv s v hs hv.1)
      (fun s v hs hv hu => sunoVisit_updates hs hv.1 hv.2 hu) hstart (updatesRight_start tasks) hall

end Suno

end WynthApi.Polling
