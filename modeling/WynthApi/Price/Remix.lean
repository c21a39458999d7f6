import WynthApi.Polling.Charge
import WynthApi.Price.PerCall

/-!
# The price of a task made from another (relay/relay_task.go)

`ResolveOriginTask` runs once and puts the origin task's ratios into `info.PriceData`.
`RelayTaskSubmit` runs once for each attempt; it builds a new `PriceData`, merges the adaptor's
estimate into it, applies the ratios to the quota and pre-consumes it the first time.  The new price
replaces the one the origin's ratios were put into, so an adaptor that leaves a remix to
`ResolveOriginTask` submits it at the base quota: `remix_priced_iff`.
-/

namespace WynthApi.Price

open Store Billing Polling

/-! ### Errors -/

/-- What a task error wraps: a text, or a price error, whose text prints floats. -/
inductive TaskCause where
  | text (message : String)
  | price (err : PriceError)
  deriving DecidableEq

structure TaskError where
  code : String
  statusCode : ℕ
  localError : Bool
  err : TaskCause
  deriving DecidableEq

def taskErrorWrapper (err : TaskCause) (code : String) (statusCode : ℕ) : TaskError :=
  ⟨code, statusCode, false, err⟩

def taskErrorWrapperLocal (err : TaskCause) (code : String) (statusCode : ℕ) : TaskError :=
  { taskErrorWrapper err code statusCode with localError := true }

def errorCodeText : ErrorCode → String
  | .invalidRequest => "invalid_request"
  | .modelPriceError => "model_price_error"
  | .queryDataError => "query_data_error"
  | .updateDataError => "update_data_error"
  | .insufficientUserQuota => "insufficient_user_quota"
  | .preConsumeTokenQuotaFailed => "pre_consume_token_quota_failed"

def taskErrorFromAPIError (e : NewAPIError) : TaskError :=
  ⟨errorCodeText e.errorCode, e.statusCode, false, .text e.err⟩

/-! ### The state of a submission -/

structure Opening where
  quota : Int
  session : BillingSession

structure SubmitInfo where
  relay : RelayInfo
  (action originTaskID userGroup usingGroup : String)
  acceptUnsetRatioModel : Bool
  lockedChannel : Option Int
  priceData : PriceData
  quotaClamp : Option QuotaClamp
  billing : Option Opening

variable (info : SubmitInfo)

def SubmitInfo.withModel (modelName : String) : SubmitInfo :=
  { info with relay := { info.relay with originModelName := modelName } }

def SubmitInfo.withPrice (usingGroup : String) (priceData : PriceData) : SubmitInfo :=
  { info with usingGroup, priceData }

def taskActionRemix : String := "remixGenerate"

/-! ### Resolving the origin task -/

structure Channel where
  id : Int
  enabled : Bool

/-- The request's path and parameter, and what the store answers.  `taskDataText data key` is the
text at a key of a task's JSON data, empty if there is none. -/
structure OriginEnv where
  (path videoID : String)
  getByTaskId : Int → String → Except String (Option Task)
  getChannelById : Int → Except String Channel
  taskDataText : String → String → String

def maxTaskDurationSeconds : Int := 3600

def sizeRatio (size : String) : ℚ :=
  if size = "1792x1024" ∨ size = "1024x1792" then 1666667 / 1000000 else 1

variable (env : OriginEnv)

def legacySeconds (originTask : Task) : Int :=
  let seconds := GoText.atoi (env.taskDataText originTask.data "seconds")
  let seconds := if seconds ≤ 0 then 4 else seconds
  if maxTaskDurationSeconds < seconds then maxTaskDurationSeconds else seconds

/-- The origin task's ratios: those of its billing context, or for an old row those of its data. -/
def addOriginRatios (originTask : Task) (price : PriceData) : PriceData :=
  match originTask.privateData.billingContext with
  | some bc => price.addOtherRatios bc.otherRatios
  | none =>
    let size := env.taskDataText originTask.data "size"
    (price.addOtherRatio "seconds" (legacySeconds env originTask)).addOtherRatio "size" (sizeRatio size)

def originModelName (originTask : Task) (requested : String) : String :=
  if requested ≠ "" then requested
  else if originTask.properties.originModelName ≠ "" then originTask.properties.originModelName
  else if originTask.properties.upstreamModelName ≠ "" then originTask.properties.upstreamModelName
  else env.taskDataText originTask.data "model"

def resolveOriginTask (info : SubmitInfo) : Except TaskError SubmitInfo :=
  let action :=
    if GoText.contains env.path "/v1/videos/" && GoText.endsWith env.path "/remix" then taskActionRemix
    else info.action
  if action = taskActionRemix ∧ GoText.isBlank env.videoID then
    .error (taskErrorWrapperLocal (.text "video_id is required") "invalid_request" 400)
  else
    let originTaskID := if action = taskActionRemix then env.videoID else info.originTaskID
    let info := { info with action, originTaskID }
    if originTaskID = "" then .ok info
    else match env.getByTaskId info.relay.userId originTaskID with
      | .error e => .error (taskErrorWrapper (.text e) "get_origin_task_failed" 500)
      | .ok none =>
        .error (taskErrorWrapperLocal (.text "task_origin_not_exist") "task_not_exist" 400)
      | .ok (some originTask) =>
        match env.getChannelById originTask.channelId with
        | .error e => .error (taskErrorWrapperLocal (.text e) "channel_not_found" 400)
        | .ok ch =>
          if ch.enabled = false then
            .error (taskErrorWrapperLocal (.text "the channel of the origin task is disabled")
              "task_channel_disable" 400)
          else .ok { info with
            relay := { info.relay with
              originModelName := originModelName env originTask info.relay.originModelName }
            lockedChannel := some ch.id
            priceData :=
              if action = taskActionRemix then addOriginRatios env originTask info.priceData
              else info.priceData }

/-! ### One attempt -/

/-- The billing hooks of a task adaptor; a nil map is empty. -/
structure TaskAdaptor where
  estimateBilling : SubmitInfo → Ratios
  adjustBillingOnSubmit : SubmitInfo → String → Ratios

structure TaskSubmitReq where
  size : String
  duration : Int
  seconds : String

variable (req : Option TaskSubmitReq)

/-- `TaskAdaptor.EstimateBilling` (relay/channel/task/sora); `none` if the context has no request. -/
def soraEstimateBilling (info : SubmitInfo) : Ratios :=
  if info.action = taskActionRemix then ∅
  else match req with
    | none => ∅
    | some req =>
      let seconds := GoText.atoi req.seconds
      let seconds := if seconds = 0 then req.duration else seconds
      let seconds := if seconds ≤ 0 then 4 else seconds
      let size := if req.size = "" then "720x1280" else req.size
      (AList.singleton "seconds" (seconds : ℚ)).insert "size" (sizeRatio size)

def soraAdaptor : TaskAdaptor :=
  ⟨soraEstimateBilling req, fun _ _ => ∅⟩

structure Site where
  ratios : RatioSetting
  billing : BillingConfig
  taskPricePatches : List String

/-- The outcome of what is left out of one attempt: an error before pricing, the store's answers to the
pre-consume, and the upstream's answer with the task's id and data. -/
structure AttemptEnv where
  early : Option TaskError
  session : SessionEnv
  upstream : Except TaskError (String × String)

def platformText : TaskPlatform → String
  | .suno => "suno"
  | .midjourney => "mj"
  | .video name => name

def coverTaskActionToModelName (platform : TaskPlatform) (action : String) : String :=
  (platformText platform).toLower ++ "_" ++ action.toLower

def submissionModel (platform : TaskPlatform) (action requested : String) : String :=
  if requested = "" then coverTaskActionToModelName platform action else requested

def noteTaskQuotaClamp (clamp : Option QuotaClamp) : SubmitInfo :=
  { info with quotaClamp := info.quotaClamp.or clamp }

/-- Step 5: the adaptor's estimate is merged into the price. -/
def mergeEstimate (adaptor : TaskAdaptor) (info : SubmitInfo) : SubmitInfo :=
  { info with priceData := info.priceData.addOtherRatios (adaptor.estimateBilling info) }

variable (site : Site)

/-- Step 6: the ratios are applied to the quota, unless the model's price is patched. -/
def applyOtherRatios (modelName : String) (info : SubmitInfo) : SubmitInfo :=
  if modelName ∈ site.taskPricePatches then info
  else
    let (quota, clamp) :=
      quotaFromFloatChecked (info.priceData.applyOtherRatiosToFloat info.priceData.quota)
    noteTaskQuotaClamp { info with priceData := { info.priceData with quota } } clamp

/-- Steps 4 to 6: the base price replaces the price in `info`, whatever it was. -/
def priceTask (adaptor : TaskAdaptor) (autoGroup : Option String) (modelName : String)
    (info : SubmitInfo) : SubmitInfo × Option TaskError :=
  let info := info.withModel modelName
  match modelPriceHelperPerCall site.ratios autoGroup info.userGroup info.usingGroup modelName
      info.acceptUnsetRatioModel with
  | (.error e, usingGroup) =>
    ({ info with usingGroup },
      some (taskErrorWrapper (.price e) "model_price_error" 400))
  | (.ok priceData, usingGroup) =>
    (applyOtherRatios site modelName (mergeEstimate adaptor (info.withPrice usingGroup priceData)), none)

def preConsumeBilling (env : SessionEnv) (db : DB) (quota : Int) (info : SubmitInfo) :
    DB × SubmitInfo × Option TaskError :=
  match info.quotaClamp with
  | some clamp => (db, info, some ⟨"model_price_error", 400, false, .price (.clamp clamp)⟩)
  | none =>
    if quota < 0 then
      (db, info, some ⟨"model_price_error", 400, false,
        .text s!"pre-consume quota cannot be negative: {quota}"⟩)
    else match newBillingSession site.billing env (some info.relay) db quota with
      | (db, .error e) => (db, info, some (taskErrorFromAPIError e))
      | (db, .ok session) =>
        (db, { info with relay := session.relayInfo, billing := some ⟨quota, session⟩ }, none)

/-- Step 7: only the first attempt of a model that is not free pre-consumes. -/
def preConsumeOnce (env : SessionEnv) (db : DB) (info : SubmitInfo) :
    DB × SubmitInfo × Option TaskError :=
  if info.billing.isNone ∧ info.priceData.freeModel = false then
    preConsumeBilling site env db info.priceData.quota
      { info with relay := { info.relay with forcePreConsume := true } }
  else (db, info, none)

def recalcQuotaFromRatios (ratios : Ratios) : Option (Int × Option QuotaClamp) :=
  let baseQuota := info.priceData.removeOtherRatiosFromFloat info.priceData.quota
  match info.priceData.replaceOtherRatios ratios with
  | (_, false) => none
  | (priceData, true) => some (quotaFromFloatChecked (priceData.applyOtherRatiosToFloat baseQuota))

/-- Step 11: the adaptor's ratios after the upstream has answered. -/
def adjustOnSubmit (adaptor : TaskAdaptor) (taskData : String) (info : SubmitInfo) : SubmitInfo :=
  let adjustedRatios := adaptor.adjustBillingOnSubmit info taskData
  if adjustedRatios.entries.isEmpty then info
  else match recalcQuotaFromRatios info adjustedRatios with
    | none => info
    | some (quota, clamp) =>
      noteTaskQuotaClamp { info with
        priceData := { (info.priceData.replaceOtherRatios adjustedRatios).1 with quota } } clamp

/-- `RelayTaskSubmit`.  What it writes to `info` stays there when it fails. -/
def relayTaskSubmit (adaptor : TaskAdaptor) (platform : TaskPlatform)
    (autoGroup : Option String) (env : AttemptEnv) (db : DB) (info : SubmitInfo) :
    DB × SubmitInfo × Except TaskError TaskSubmitResult :=
  match env.early with
  | some e => (db, info, .error e)
  | none =>
    let modelName := submissionModel platform info.action info.relay.originModelName
    match priceTask site adaptor autoGroup modelName info with
    | (info, some e) => (db, info, .error e)
    | (info, none) =>
      match preConsumeOnce site env.session db info with
      | (db, info, some e) => (db, info, .error e)
      | (db, info, none) =>
        match env.upstream with
        | .error e => (db, info, .error e)
        | .ok (upstreamTaskID, taskData) =>
          let info := adjustOnSubmit adaptor taskData info
          (db, info, .ok ⟨upstreamTaskID, taskData, platform, info.priceData.quota⟩)

/-! ### All attempts -/

def shouldRetryTaskRelay (e : TaskError) : Bool :=
  if e.localError then false
  else if e.statusCode = 429 ∨ e.statusCode = 307 then true
  else if e.statusCode / 100 = 5 then !(e.statusCode = 504 || e.statusCode = 524)
  else !(e.statusCode = 400 || e.statusCode = 408 || e.statusCode / 100 = 2)

/-- The retry loop of `RelayTask` for a pinned channel, with the attempts its limit allows.  Each starts from
the model name of the request; the price is not restored. -/
def relayTaskAttempts (site : Site) (adaptor : TaskAdaptor) (platform : TaskPlatform)
    (autoGroup : Option String) (modelName : String) :
    List AttemptEnv → DB → SubmitInfo → DB × SubmitInfo × Option (Except TaskError TaskSubmitResult)
  | [], db, info => (db, info, none)
  | env :: envs, db, info =>
    match relayTaskSubmit site adaptor platform autoGroup env db (info.withModel modelName) with
    | (db, info, .ok result) => (db, info, some (.ok result))
    | (db, info, .error e) =>
      if shouldRetryTaskRelay e then
        match relayTaskAttempts site adaptor platform autoGroup modelName envs db info with
        | (db, info, none) => (db, info, some (.error e))
        | done => done
      else (db, info, some (.error e))

/-! ### What the origin task leaves in the price -/

/-- **Resolution**: the price of a resolved remix has the origin's ratios, and nothing is billed yet. -/
theorem resolveOriginTask_ratios {env : OriginEnv} {info₀ info : SubmitInfo} {task : Task}
    {bc : TaskBillingContext} (hresolve : resolveOriginTask env info₀ = .ok info)
    (hremix : info.action = taskActionRemix)
    (horigin : env.getByTaskId info₀.relay.userId info.originTaskID = .ok (some task))
    (hctx : task.privateData.billingContext = some bc) (hempty : info₀.priceData.otherRatios = ∅) :
    info.priceData.otherRatioMultiplier = validProduct bc.otherRatios ∧ info.billing = info₀.billing := by
  have hmerge : (info₀.priceData.addOtherRatios bc.otherRatios).otherRatioMultiplier = validProduct bc.otherRatios := by
    have hnone : ∀ key ∈ bc.otherRatios, key ∉ info₀.priceData.otherRatios := by
      intro key _
      rw [hempty]
      exact AList.notMem_empty key
    rw [(PriceData.addOtherRatios_spec hnone).1, PriceData.otherRatioMultiplier, hempty]
    exact one_mul _
  unfold resolveOriginTask at hresolve
  dsimp only at hresolve
  generalize (if (GoText.contains env.path "/v1/videos/" && GoText.endsWith env.path "/remix") = true
    then taskActionRemix else info₀.action) = action at hresolve
  by_cases hblank : action = taskActionRemix ∧ GoText.isBlank env.videoID = true
  · rw [if_pos hblank] at hresolve
    cases hresolve
  rw [if_neg hblank] at hresolve
  by_cases hid : (if action = taskActionRemix then env.videoID else info₀.originTaskID) = ""
  · -- a remix without an id is refused above
    rw [if_pos hid] at hresolve
    cases hresolve
    have hremix' : action = taskActionRemix := hremix
    rw [if_pos hremix'] at hid
    exact absurd ⟨hremix', by rw [hid]; rfl⟩ hblank
  rw [if_neg hid] at hresolve
  split at hresolve
  case h_1 => cases hresolve
  case h_2 => cases hresolve
  case h_3 originTask hget =>
    split at hresolve
    case h_1 => cases hresolve
    case h_2 ch _ =>
      split_ifs at hresolve with hdisabled haction
      · cases hresolve
        rw [if_pos haction] at hget
        have hsame : originTask = task := by
          have hfound := hget.symm.trans horigin
          simpa using hfound
        refine ⟨?_, rfl⟩
        change (addOriginRatios env originTask info₀.priceData).otherRatioMultiplier = _
        rw [hsame, addOriginRatios, hctx]
        exact hmerge
      · cases hresolve
        exact absurd hremix haction

/-! ### What an attempt charges -/

def SilentOnRemix (adaptor : TaskAdaptor) : Prop :=
  ∀ info, info.action = taskActionRemix →
    adaptor.estimateBilling info = ∅ ∧ ∀ taskData, adaptor.adjustBillingOnSubmit info taskData = ∅

theorem sora_silentOnRemix : SilentOnRemix (soraAdaptor req) := by
  intro info haction
  refine ⟨?_, fun _ => rfl⟩
  change soraEstimateBilling req info = ∅
  unfold soraEstimateBilling
  exact if_pos haction

/-- Between attempts: what the price depends on is as at first, and a session that is open was opened
for `quota`. -/
structure Underway (autoGroup : Option String) (quota : Int) (first info : SubmitInfo) : Prop where
  action : info.action = first.action
  userGroup : info.userGroup = first.userGroup
  accept : info.acceptUnsetRatioModel = first.acceptUnsetRatioModel
  group : autoGroup.getD info.usingGroup = autoGroup.getD first.usingGroup
  billing : ∀ o, info.billing = some o → o.quota = quota

theorem Underway.withModel {autoGroup : Option String} {quota : Int} {first info : SubmitInfo}
    (h : Underway autoGroup quota first info) (modelName : String) :
    Underway autoGroup quota first (info.withModel modelName) :=
  ⟨h.action, h.userGroup, h.accept, h.group, h.billing⟩

section Attempt

variable {site : Site} {adaptor : TaskAdaptor} {platform : TaskPlatform} {autoGroup : Option String}
  {modelName group : String} {first info : SubmitInfo} {price : PriceData}

theorem mergeEstimate_silent (hsilent : SilentOnRemix adaptor)
    (hremix : info.action = taskActionRemix) : mergeEstimate adaptor info = info := by
  unfold mergeEstimate
  rw [(hsilent info hremix).1]
  rfl

theorem applyOtherRatios_base (hrange : InRange info.priceData.quota)
    (hratios : info.priceData.otherRatios = ∅) : applyOtherRatios site modelName info = info := by
  have happly : info.priceData.applyOtherRatiosToFloat info.priceData.quota = (info.priceData.quota : ℚ) := by
    rw [applyOtherRatiosToFloat_eq, PriceData.otherRatioMultiplier, hratios]
    exact mul_one _
  unfold applyOtherRatios noteTaskQuotaClamp
  rw [happly, quotaFromFloatChecked_intCast hrange]
  split_ifs
  · rfl
  · dsimp only
    rw [Option.or_none]

theorem priceTask_base (hsilent : SilentOnRemix adaptor) (hremix : first.action = taskActionRemix)
    (hprice : modelPriceHelperPerCall site.ratios autoGroup first.userGroup first.usingGroup modelName
      first.acceptUnsetRatioModel = (.ok price, group))
    (hinfo : Underway autoGroup price.quota first info) :
    ∃ info', priceTask site adaptor autoGroup modelName info = (info', none) ∧
      Underway autoGroup price.quota first info' ∧ info'.priceData.quota = price.quota := by
  obtain ⟨hrange, hratios⟩ := modelPriceHelperPerCall_spec hprice
  have hgroup := modelPriceHelperPerCall_group site.ratios autoGroup first.userGroup first.usingGroup
    modelName first.acceptUnsetRatioModel
  rw [hprice] at hgroup
  have hinfo₁ := hinfo.withModel modelName
  have hsame : modelPriceHelperPerCall site.ratios autoGroup (info.withModel modelName).userGroup
      (info.withModel modelName).usingGroup modelName
      (info.withModel modelName).acceptUnsetRatioModel = (.ok price, group) := by
    rw [hinfo₁.userGroup, hinfo₁.accept, modelPriceHelperPerCall_congr hinfo₁.group, hprice]
  have hgroup' : autoGroup.getD group = autoGroup.getD first.usingGroup := by
    cases autoGroup with
    | none => exact hgroup
    | some g => rfl
  have haction : ((info.withModel modelName).withPrice group price).action = taskActionRemix :=
    hinfo.action.trans hremix
  refine ⟨(info.withModel modelName).withPrice group price, ?_,
    ⟨hinfo.action, hinfo.userGroup, hinfo.accept, hgroup', hinfo.billing⟩, rfl⟩
  unfold priceTask
  dsimp only
  rw [hsame]
  dsimp only
  rw [mergeEstimate_silent hsilent haction, applyOtherRatios_base hrange hratios]

variable {db db' : DB} {info' : SubmitInfo}

theorem preConsumeOnce_underway {env : SessionEnv}
    {e : Option TaskError} (hinfo : Underway autoGroup price.quota first info)
    (hquota : info.priceData.quota = price.quota) (h : preConsumeOnce site env db info = (db', info', e)) :
    Underway autoGroup price.quota first info' ∧ info'.priceData.quota = price.quota := by
  have hsame : Underway autoGroup price.quota first
      { info with relay := { info.relay with forcePreConsume := true } } :=
    ⟨hinfo.action, hinfo.userGroup, hinfo.accept, hinfo.group, hinfo.billing⟩
  unfold preConsumeOnce at h
  split_ifs at h with hopen
  · unfold preConsumeBilling at h
    dsimp only at h
    split at h
    case h_1 =>
      cases h
      exact ⟨hsame, hquota⟩
    case h_2 =>
      split_ifs at h with hneg
      · cases h
        exact ⟨hsame, hquota⟩
      · split at h
        case h_1 =>
          cases h
          exact ⟨hsame, hquota⟩
        case h_2 =>
          cases h
          refine ⟨⟨hinfo.action, hinfo.userGroup, hinfo.accept, hinfo.group, ?_⟩, hquota⟩
          intro o ho
          cases ho
          exact hquota
  · cases h
    exact ⟨hinfo, hquota⟩

/-- **Step**: an attempt keeps the session's quota, and a result is for the base quota. -/
theorem relayTaskSubmit_underway {env : AttemptEnv}
    {outcome : Except TaskError TaskSubmitResult} (hsilent : SilentOnRemix adaptor)
    (hremix : first.action = taskActionRemix)
    (hprice : modelPriceHelperPerCall site.ratios autoGroup first.userGroup first.usingGroup
      (submissionModel platform taskActionRemix info.relay.originModelName)
      first.acceptUnsetRatioModel = (.ok price, group)) (hinfo : Underway autoGroup price.quota first info)
    (h : relayTaskSubmit site adaptor platform autoGroup env db info = (db', info', outcome)) :
    Underway autoGroup price.quota first info' ∧ ∀ result, outcome = .ok result → result.quota = price.quota := by
  unfold relayTaskSubmit at h
  split at h
  case h_1 =>
    cases h
    exact ⟨hinfo, fun _ hr => by cases hr⟩
  case h_2 =>
    rw [hinfo.action.trans hremix] at h
    obtain ⟨info₁, hpriced, hinfo₁, hquota₁⟩ := priceTask_base hsilent hremix hprice hinfo
    dsimp only at h
    rw [hpriced] at h
    dsimp only at h
    rcases hpre : preConsumeOnce site env.session db info₁ with ⟨db₂, info₂, e⟩
    obtain ⟨hinfo₂, hquota₂⟩ := preConsumeOnce_underway hinfo₁ hquota₁ hpre
    rw [hpre] at h
    cases e with
    | some e =>
      cases h
      exact ⟨hinfo₂, fun _ hr => by cases hr⟩
    | none =>
      dsimp only at h
      split at h
      case h_1 =>
        cases h
        exact ⟨hinfo₂, fun _ hr => by cases hr⟩
      case h_2 upstreamTaskID taskData _ =>
        have hadjust : adjustOnSubmit adaptor taskData info₂ = info₂ := by
          unfold adjustOnSubmit
          rw [(hsilent info₂ (hinfo₂.action.trans hremix)).2 taskData]
          rfl
        rw [hadjust] at h
        cases h
        refine ⟨hinfo₂, fun result hr => ?_⟩
        cases hr
        exact hquota₂

/-- **Run**: however many attempts it takes, a remix is submitted for the base quota. -/
theorem relayTaskAttempts_underway {envs : List AttemptEnv}
    {result : TaskSubmitResult} (hsilent : SilentOnRemix adaptor) (hremix : first.action = taskActionRemix)
    (hprice : modelPriceHelperPerCall site.ratios autoGroup first.userGroup first.usingGroup
      (submissionModel platform taskActionRemix modelName) first.acceptUnsetRatioModel = (.ok price, group))
    (hinfo : Underway autoGroup price.quota first info)
    (h : relayTaskAttempts site adaptor platform autoGroup modelName envs db info = (db', info', some (.ok result))) :
    Underway autoGroup price.quota first info' ∧ result.quota = price.quota := by
  induction envs generalizing db info with
  | nil => cases h
  | cons env envs ih =>
    have hprice₁ : modelPriceHelperPerCall site.ratios autoGroup first.userGroup first.usingGroup
        (submissionModel platform taskActionRemix (info.withModel modelName).relay.originModelName)
        first.acceptUnsetRatioModel = (.ok price, group) := hprice
    rcases hsubmit : relayTaskSubmit site adaptor platform autoGroup env db (info.withModel modelName)
      with ⟨db₁, info₁, outcome⟩
    obtain ⟨hinfo₁, hquota⟩ := relayTaskSubmit_underway hsilent hremix hprice₁ (hinfo.withModel modelName) hsubmit
    rw [relayTaskAttempts, hsubmit] at h
    cases outcome with
    | ok r =>
      cases h
      exact ⟨hinfo₁, hquota _ rfl⟩
    | error e =>
      dsimp only at h
      split_ifs at h
      · -- the attempts that follow decide, unless there are none
        split at h
        case h_1 => cases h
        case h_2 => exact ih hinfo₁ h
      · cases h

end Attempt

/-! ### The price of a remix -/

def SubmittedFor (quota : Int) (info : SubmitInfo) (result : TaskSubmitResult) : Prop :=
  (∀ o, info.billing = some o → o.quota = quota) ∧ result.quota = quota

/-- **Remix price**: the origin's ratios are in the price when the attempts begin, and the remix is
pre-consumed and submitted for the base quota times their product exactly if the product adds less than
one to it. -/
theorem remix_priced_iff {site : Site} {adaptor : TaskAdaptor} {platform : TaskPlatform}
    {autoGroup : Option String} {env : OriginEnv} {info₀ info info' : SubmitInfo} {task : Task}
    {bc : TaskBillingContext} {price : PriceData} {group : String} {envs : List AttemptEnv}
    {db db' : DB} {result : TaskSubmitResult} (hnew : info₀.billing = none)
    (hempty : info₀.priceData.otherRatios = ∅)
    (hresolve : resolveOriginTask env info₀ = .ok info) (hremix : info.action = taskActionRemix)
    (horigin : env.getByTaskId info₀.relay.userId info.originTaskID = .ok (some task))
    (hctx : task.privateData.billingContext = some bc) (hsilent : SilentOnRemix adaptor)
    (hprice : modelPriceHelperPerCall site.ratios autoGroup info.userGroup info.usingGroup
      (submissionModel platform taskActionRemix info.relay.originModelName)
      info.acceptUnsetRatioModel = (.ok price, group))
    (hrun : relayTaskAttempts site adaptor platform autoGroup info.relay.originModelName envs db info =
      (db', info', some (.ok result))) : info.priceData.otherRatioMultiplier = validProduct bc.otherRatios ∧
      (SubmittedFor (quotaFromFloat (price.quota * validProduct bc.otherRatios)) info' result ↔
        0 ≤ |(price.quota : ℚ)| * (validProduct bc.otherRatios - 1) ∧
          |(price.quota : ℚ)| * (validProduct bc.otherRatios - 1) < 1) := by
  obtain ⟨hmul, hbilling⟩ := resolveOriginTask_ratios hresolve hremix horigin hctx hempty
  refine ⟨hmul, ?_⟩
  have hstart : Underway autoGroup price.quota info info := by
    refine ⟨rfl, rfl, rfl, rfl, fun o ho => ?_⟩
    rw [hbilling, hnew] at ho
    cases ho
  obtain ⟨hdone, hquota⟩ := relayTaskAttempts_underway hsilent hremix hprice hstart hrun
  have hpos : 0 < validProduct bc.otherRatios := by
    rw [← multiplierOf_eq_validProduct]
    exact multiplierOf_pos _
  rw [← quotaFromFloat_mul_eq_iff (modelPriceHelperPerCall_spec hprice).1 hpos]
  refine ⟨fun hsub => ?_, fun heq => ?_⟩
  · rw [← hsub.2, hquota]
  · rw [heq]
    exact ⟨hdone.billing, hquota⟩

/-! ### A remix of one video -/

def exampleSite : Site :=
  { ratios :=
      { groupRatio := AList.singleton "default" 1
        groupGroupRatio := ∅
        modelPrice := AList.singleton "sora-2" (1 / 5000)
        defaultModelPrice := ∅
        modelRatio := ∅
        selfUseModeEnabled := false
        enableFreeModelPreConsume := false
        quotaPerUnit := 500000 }
    billing := Billing.exampleConfig
    taskPricePatches := [] }

def examplePrice : PriceData := ⟨false, 1 / 5000, 0, ∅, true, 100, ⟨1, -1, false⟩⟩

variable (seconds : ℚ)

def originContext : TaskBillingContext :=
  ⟨1 / 5000, 1, 0, AList.singleton "seconds" seconds, "sora-2", true⟩

def originTask : Task :=
  { exampleRow with
    properties := ⟨"sora-2", "sora-2"⟩
    privateData := { exampleRow.privateData with billingContext := some (originContext seconds) } }

def remixOf : OriginEnv :=
  { path := "/v1/videos/task_a/remix", videoID := "task_a"
    getByTaskId := fun _ _ => .ok (some (originTask seconds))
    getChannelById := fun id => .ok ⟨id, true⟩
    taskDataText := fun _ _ => "" }

def remixRequest : SubmitInfo :=
  { relay := { Billing.exampleInfo with originModelName := "" }
    action := "", originTaskID := "", userGroup := "default", usingGroup := "default"
    acceptUnsetRatioModel := false, lockedChannel := none
    priceData := ⟨false, 0, 0, ∅, false, 0, ⟨0, 0, false⟩⟩, quotaClamp := none, billing := none }

def exampleAttempts : List AttemptEnv :=
  [⟨none, Billing.exampleEnv, .error ⟨"fail_to_fetch_task", 503, false, .text "busy"⟩⟩,
    ⟨none, Billing.exampleEnv, .ok ("u", "")⟩]

def resolvedRemix : SubmitInfo :=
  { remixRequest with
    relay := { remixRequest.relay with originModelName := "sora-2" }
    action := taskActionRemix
    originTaskID := "task_a"
    lockedChannel := some 3
    priceData := remixRequest.priceData.addOtherRatios (originContext seconds).otherRatios }

def remixOutcome : DB × SubmitInfo × Option (Except TaskError TaskSubmitResult) :=
  relayTaskAttempts exampleSite (soraAdaptor none) (.video "55") none "sora-2" exampleAttempts
    Billing.exampleDB (resolvedRemix seconds)

/-- The origin task was one second long: nothing is lost. -/
theorem remix_priced_one_second : SubmittedFor 100 (remixOutcome 1).2.1 ⟨"u", "", .video "55", 100⟩ := by
  have hrun : remixOutcome 1 = ((remixOutcome 1).1, (remixOutcome 1).2.1,
      some (.ok ⟨"u", "", .video "55", 100⟩)) :=
    Prod.ext rfl (Prod.ext rfl (by decide +kernel))
  have hresolve : resolveOriginTask (remixOf 1) remixRequest = .ok (resolvedRemix 1) := rfl
  have hprice : modelPriceHelperPerCall exampleSite.ratios none "default" "default" "sora-2" false =
      (.ok examplePrice, "default") := by
    have hcall : perCallQuota exampleSite.ratios 1 (1 / 5000) (1 / 5000) = .ok (100, false) := by
      decide +kernel
    have hgroup : handleGroupRatio exampleSite.ratios none "default" "default" =
        (examplePrice.groupRatioInfo, "default") := rfl
    have hpricing : modelPricing exampleSite.ratios "sora-2" false = .ok (1 / 5000, 0, true) := rfl
    have hratio : examplePrice.groupRatioInfo.groupRatio = 1 := rfl
    simp only [modelPriceHelperPerCall, hgroup, hpricing, hratio, if_true, hcall]
    rfl
  have hquota : quotaFromFloat (examplePrice.quota * validProduct (originContext 1).otherRatios) = 100 := by
    decide +kernel
  have hpriced := (remix_priced_iff rfl rfl hresolve rfl rfl rfl (sora_silentOnRemix none) hprice
    hrun).2.mpr ⟨by decide +kernel, by decide +kernel⟩
  rwa [hquota] at hpriced

/-- The origin task was eight seconds long: the price had its ratio when the attempts began, and the
remix is pre-consumed and submitted for `100` where eight times as much was due. -/
theorem remix_priced_at_base : resolveOriginTask (remixOf 8) remixRequest = .ok (resolvedRemix 8) ∧
      (resolvedRemix 8).priceData.otherRatioMultiplier = 8 ∧
      quotaFromFloat (100 * validProduct (originContext 8).otherRatios) = 800 ∧
      (remixOutcome 8).2.2 = some (.ok ⟨"u", "", .video "55", 100⟩) ∧
      (remixOutcome 8).2.1.billing.map Opening.quota = some 100 :=
  ⟨rfl, by decide +kernel, by decide +kernel, by decide +kernel, by decide +kernel⟩

end WynthApi.Price
