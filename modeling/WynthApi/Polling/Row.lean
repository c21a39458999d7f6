import Mathlib.Data.Rat.Defs
import WynthApi.Billing.Funding
import WynthApi.Lib.Cas

/-!
# The async task row (model/task.go)

A handler reads the row into a private copy, works on the copy and writes all of it back, guarded by
the status it read (`updateWithStatus`).  `bulkFail` is the unguarded update.  Time stamps of the
row itself, the user name and the node name are left out: nothing modelled here reads them.
-/

namespace WynthApi.Polling

open Store Billing

def knownStatusTexts : List String :=
  ["NOT_START", "SUBMITTED", "QUEUED", "IN_PROGRESS", "FAILURE", "SUCCESS", "UNKNOWN"]

/-- `TaskStatus`.  The column is a text and an upstream may send any; `other` is never the text of a
named status. -/
inductive TaskStatus where
  | notStart
  | submitted
  | queued
  | inProgress
  | failure
  | success
  | unknown
  | other (text : String) (h : text ∉ knownStatusTexts)
  deriving DecidableEq

namespace TaskStatus

def text : TaskStatus → String
  | notStart => "NOT_START"
  | submitted => "SUBMITTED"
  | queued => "QUEUED"
  | inProgress => "IN_PROGRESS"
  | failure => "FAILURE"
  | success => "SUCCESS"
  | unknown => "UNKNOWN"
  | other t _ => t

variable (t : String)

def ofText : TaskStatus :=
  if h : t ∉ knownStatusTexts then other t h
  else if t = "NOT_START" then notStart
  else if t = "SUBMITTED" then submitted
  else if t = "QUEUED" then queued
  else if t = "IN_PROGRESS" then inProgress
  else if t = "FAILURE" then failure
  else if t = "SUCCESS" then success
  else unknown

theorem text_ofText : (ofText t).text = t := by
  by_cases h : t ∈ knownStatusTexts
  · simp only [knownStatusTexts, List.mem_cons, List.not_mem_nil, or_false] at h
    rcases h with rfl | rfl | rfl | rfl | rfl | rfl | rfl <;> rfl
  · rw [ofText, dif_pos h]
    rfl

def IsTerminal (s : TaskStatus) : Prop := s = failure ∨ s = success
  deriving Decidable

end TaskStatus

inductive TaskPlatform where
  | suno
  | midjourney
  | video (name : String)
  deriving DecidableEq

structure TaskBillingContext where
  (modelPrice groupRatio modelRatio : ℚ)
  otherRatios : AList fun _ : String => ℚ
  originModelName : String
  perCallBilling : Bool

/-- `billingSource` is `none` for the empty text of old rows. -/
structure TaskPrivateData where
  (key upstreamTaskID resultURL : String)
  billingSource : Option BillingSource
  (subscriptionId tokenId : Int)
  billingContext : Option TaskBillingContext

structure Properties where
  (upstreamModelName originModelName : String)

structure Task where
  id : Int
  taskID : String
  platform : TaskPlatform
  userId : Int
  group : String
  (channelId quota : Int)
  action : String
  status : TaskStatus
  failReason : String
  (submitTime startTime finishTime : Int)
  progress : String
  properties : Properties
  privateData : TaskPrivateData
  data : String

def taskRefundLegacyCutoff : Int := 1771718400

namespace Task

variable (t : Task)

def getUpstreamTaskID : String :=
  if t.privateData.upstreamTaskID ≠ "" then t.privateData.upstreamTaskID else t.taskID

/-- The filter of `GetAllUnFinishSyncTasks`. -/
def Unfinished : Prop := t.progress ≠ "100%" ∧ ¬ t.status.IsTerminal
  deriving Decidable

/-- The filter of `GetTimedOutUnfinishedTasks`. -/
def TimedOut (cutoff : Int) (t : Task) : Prop := t.Unfinished ∧ t.submitTime < cutoff
  deriving Decidable

/-- `isLegacy` of the sweeper. -/
def IsLegacy : Prop := 0 < t.submitTime ∧ t.submitTime < taskRefundLegacyCutoff
  deriving Decidable

/-- `Snapshot().Equal`: the columns a polling update may have changed. -/
def SnapshotEq (s t : Task) : Prop :=
  s.status = t.status ∧ s.progress = t.progress ∧ s.startTime = t.startTime ∧
    s.finishTime = t.finishTime ∧ s.failReason = t.failReason ∧
    s.privateData.resultURL = t.privateData.resultURL ∧ s.data = t.data
  deriving Decidable

/-- `UpdateWithStatus`: write all columns of `copy` iff the row still has `fromStatus`; the result
says whether the row matched.  A statement that fails writes nothing. -/
def updateWithStatus (row copy : Task) (fromStatus : TaskStatus) (fault : Fault) : Bool × Task :=
  Cas.write Task.status row copy fromStatus fault

variable (row : Task)

def updateQuota (quota : Int) : Task := { row with quota }

/-- `TaskBulkUpdateByID` with status `FAILURE`; the update for rows without an upstream id carries
no reason. -/
def bulkFail (failReason : Option String) : Task :=
  { row with
    status := .failure
    progress := "100%"
    failReason := failReason.getD row.failReason }

/-- The columns that name a row and its billing, which no update of a handler changes. -/
structure SameBilling (s t : Task) : Prop where
  id : s.id = t.id
  channelId : s.channelId = t.channelId
  upstreamTaskID : s.getUpstreamTaskID = t.getUpstreamTaskID
  userId : s.userId = t.userId
  source : s.privateData.billingSource = t.privateData.billingSource
  subscriptionId : s.privateData.subscriptionId = t.privateData.subscriptionId
  tokenId : s.privateData.tokenId = t.privateData.tokenId

namespace SameBilling

theorem refl : SameBilling t t := ⟨rfl, rfl, rfl, rfl, rfl, rfl, rfl⟩

theorem trans {s t u : Task} (h₁ : SameBilling s t) (h₂ : SameBilling t u) : SameBilling s u :=
  ⟨h₁.id.trans h₂.id, h₁.channelId.trans h₂.channelId,
    h₁.upstreamTaskID.trans h₂.upstreamTaskID, h₁.userId.trans h₂.userId, h₁.source.trans h₂.source,
    h₁.subscriptionId.trans h₂.subscriptionId, h₁.tokenId.trans h₂.tokenId⟩

theorem withQuota {s t : Task} (h : SameBilling s t) (quota : Int) : SameBilling { s with quota } t :=
  ⟨h.id, h.channelId, h.upstreamTaskID, h.userId, h.source, h.subscriptionId, h.tokenId⟩

end SameBilling

structure SameSubmission (s t : Task) : Prop extends SameBilling s t where
  quota : s.quota = t.quota
  submitTime : s.submitTime = t.submitTime

namespace SameSubmission

theorem refl (t : Task) : SameSubmission t t := ⟨.refl t, rfl, rfl⟩

theorem trans {s t u : Task} (h₁ : SameSubmission s t) (h₂ : SameSubmission t u) : SameSubmission s u :=
  ⟨h₁.toSameBilling.trans h₂.toSameBilling, h₁.quota.trans h₂.quota, h₁.submitTime.trans h₂.submitTime⟩

end SameSubmission

end Task

end WynthApi.Polling
