import WynthApi.Lib.Cas
import WynthApi.Lib.Run
import WynthApi.Store.Ledger

/-!
# The Midjourney pass (controller/midjourney.go)

A pass reads the unfinished rows and works through the items of the upstream's response, each on the copy it has read;
an item that reports a failure gives the user's quota back after the guarded update of the row.  The guard is the
status column, while the refund also depends on the item's progress and reason.  So a refund happens at most once if
every refunding update is a move into `FAILURE` and no update starts there (`Careful`).

The status of a row is whatever text the upstream sends.  `RelayMidjourneyNotify`, which writes rows
without a guard, never moves quota and is left out.
-/

namespace WynthApi.MjPolling

open Store StepSys

structure Midjourney where
  (code userId : Int)
  (mjId promptEn state : String)
  (submitTime startTime finishTime : Int)
  (imageUrl videoUrl videoUrls status progress failReason : String)
  quota : Int
  (buttons properties : String)
  deriving DecidableEq

/-- `dto.MidjourneyDto`, for the row it names; `buttons` and `properties` are the marshalled texts,
`none` where the field is absent. -/
structure MidjourneyDto where
  (promptEn state : String)
  (submitTime startTime finishTime : Int)
  (imageUrl videoUrl : String)
  videoUrls : List String
  (status progress failReason : String)
  (buttons properties : Option String)
  deriving DecidableEq

/-- `common.Marshal` of a list of URLs; `none` is an error. -/
abbrev MarshalUrls := List String → Option String

/-! ### One item -/

/-- A task older than an hour fails, whatever the item says. -/
def timedOut (task : Midjourney) (item : MidjourneyDto) (now : Int) : MidjourneyDto :=
  if 3600000 < now - task.submitTime ∧ task.progress ≠ "100%" then
    { item with failReason := "上游任务超时（超过1小时）", status := "FAILURE" }
  else item

variable (marshal : MarshalUrls)

def checkMjTaskNeedUpdate (old : Midjourney) (new : MidjourneyDto) : Bool :=
  old.code ≠ 1 || old.progress ≠ new.progress || old.promptEn ≠ new.promptEn ||
  old.state ≠ new.state || old.submitTime ≠ new.submitTime || old.startTime ≠ new.startTime ||
  old.finishTime ≠ new.finishTime || old.imageUrl ≠ new.imageUrl || old.status ≠ new.status ||
  old.failReason ≠ new.failReason || old.finishTime ≠ new.finishTime ||
  (old.progress ≠ "100%" && new.failReason ≠ "") || old.videoUrl ≠ new.videoUrl ||
  (if new.videoUrls ≠ [] then old.videoUrls ≠ (marshal new.videoUrls).getD ""
    else old.videoUrls ≠ "")

def merge (task : Midjourney) (item : MidjourneyDto) : Midjourney :=
  { task with
    code := 1
    progress := item.progress
    promptEn := item.promptEn
    state := item.state
    submitTime := item.submitTime
    startTime := item.startTime
    finishTime := item.finishTime
    imageUrl := item.imageUrl
    status := item.status
    failReason := item.failReason
    properties := item.properties.getD task.properties
    buttons := item.buttons.getD task.buttons
    videoUrl := item.videoUrl
    videoUrls := if item.videoUrls ≠ [] then (marshal item.videoUrls).getD "[]" else "" }

def hasFailed (task : Midjourney) (item : MidjourneyDto) : Bool :=
  (task.progress ≠ "100%" && item.failReason ≠ "") ||
  (task.progress = "100%" && task.status = "FAILURE")

def applyItem (task : Midjourney) (item : MidjourneyDto) : Midjourney × Bool :=
  let t := merge marshal task item
  if hasFailed t item then ({ t with progress := "100%" }, decide (t.quota ≠ 0)) else (t, false)

def updateWithStatus (row copy : Midjourney) (fromStatus : String) (fault : Fault) : Bool × Midjourney :=
  Cas.write Midjourney.status row copy fromStatus fault

/-- A pass and its copy of the row; `owes` between a guarded update that asks for a refund and the
statement that makes it. -/
structure Pass where
  copy : Midjourney
  owes : Bool
  deriving DecidableEq

def processItem (row copy : Midjourney) (item : MidjourneyDto) (now : Int)
    (fault : Fault) : Pass × Midjourney :=
  let item := timedOut copy item now
  if checkMjTaskNeedUpdate marshal copy item then
    let (t, shouldReturnQuota) := applyItem marshal copy item
    let (won, row') := updateWithStatus row t copy.status fault
    (⟨t, won && shouldReturnQuota⟩, row')
  else (⟨copy, false⟩, row)

/-- `MjBulkUpdate` and `MjBulkUpdateByTaskIds` with status `FAILURE`; rows without an upstream id get
no reason. -/
def bulkFail (row : Midjourney) (failReason : Option String) : Midjourney :=
  { row with
    status := "FAILURE"
    progress := "100%"
    failReason := failReason.getD row.failReason }

/-! ### Any number of passes -/

structure Sys where
  row : Midjourney
  db : DB
  passes : ℕ → Option Pass

inductive Action where
  | read (pass : ℕ)
  | item (pass : ℕ) (item : MidjourneyDto) (now : Int) (fault : Fault)
  | returnQuota (pass : ℕ) (fault : Fault)
  | bulkFail (pass : ℕ) (failReason : Option String)
  | finish (pass : ℕ)
  | others (db : DB)

variable (s : Sys)

def Sys.setPass (p : ℕ) (v : Option Pass) : Sys :=
  { s with passes := Function.update s.passes p v }

def increase (db : DB) (task : Midjourney) (fault : Fault) : DB :=
  match increaseUserQuota db task.userId task.quota fault with
  | .ok db' => db'
  | .error _ => db

def step : Action → Sys
  | .read p =>
    match s.passes p with
    | some _ => s
    | none => if s.row.progress ≠ "100%" then s.setPass p (some ⟨s.row, false⟩) else s
  | .item p item now fault =>
    match s.passes p with
    | some ⟨copy, false⟩ =>
      if copy.mjId ≠ "" then
        let (pass, row) := processItem marshal s.row copy item now fault
        { s with row }.setPass p (some pass)
      else s
    | _ => s
  | .returnQuota p fault =>
    match s.passes p with
    | some ⟨copy, true⟩ => { s with db := increase s.db copy fault }.setPass p (some ⟨copy, false⟩)
    | _ => s
  | .bulkFail p failReason =>
    match s.passes p with
    | some ⟨copy, false⟩ =>
      if failReason = none ↔ copy.mjId = "" then { s with row := bulkFail s.row failReason } else s
    | _ => s
  | .finish p =>
    match s.passes p with
    | some ⟨_, false⟩ => s.setPass p none
    | _ => s
  | .others db => { s with db := { db with journal := s.db.journal } }

def Sys.start (row : Midjourney) (db : DB) : Sys := ⟨row, db, fun _ => none⟩

/-! ### What a step can do -/

inductive Stepped (marshal : MarshalUrls) (s : Sys) : Action → Sys → Prop
  | idle (a : Action) : Stepped marshal s a s
  | read {p : ℕ} (hfree : s.passes p = none) (hread : s.row.progress ≠ "100%") :
      Stepped marshal s (.read p) (s.setPass p (some ⟨s.row, false⟩))
  | item {p : ℕ} {copy row : Midjourney} {item : MidjourneyDto} {now : Int} {fault : Fault}
      {pass : Pass} (hp : s.passes p = some ⟨copy, false⟩)
      (h : processItem marshal s.row copy item now fault = (pass, row)) :
      Stepped marshal s (.item p item now fault) ({ s with row }.setPass p (some pass))
  | returned {p : ℕ} {copy : Midjourney} {fault : Fault} (hp : s.passes p = some ⟨copy, true⟩) :
      Stepped marshal s (.returnQuota p fault)
        ({ s with db := increase s.db copy fault }.setPass p (some ⟨copy, false⟩))
  | bulk {p : ℕ} {copy : Midjourney} {failReason : Option String}
      (hp : s.passes p = some ⟨copy, false⟩) :
      Stepped marshal s (.bulkFail p failReason) { s with row := bulkFail s.row failReason }
  | finish {p : ℕ} {copy : Midjourney} (hp : s.passes p = some ⟨copy, false⟩) :
      Stepped marshal s (.finish p) (s.setPass p none)
  | others (db : DB) :
      Stepped marshal s (.others db) { s with db := { db with journal := s.db.journal } }

theorem stepped (marshal : MarshalUrls) (s : Sys) (a : Action) : Stepped marshal s a (step marshal s a) := by
  cases a with
  | read p =>
    simp only [step]
    cases hp : s.passes p with
    | some pass => exact .idle _
    | none =>
      by_cases hr : s.row.progress ≠ "100%"
      · simp only [if_pos hr]
        exact .read hp hr
      · simp only [if_neg hr]
        exact .idle _
  | item p item now fault =>
    simp only [step]
    rcases hp : s.passes p with _ | ⟨copy, owes⟩
    · exact .idle _
    cases owes with
    | true => exact .idle _
    | false =>
      by_cases hid : copy.mjId ≠ ""
      · simp only [if_pos hid]
        exact .item hp rfl
      · simp only [if_neg hid]
        exact .idle _
  | returnQuota p fault =>
    simp only [step]
    rcases hp : s.passes p with _ | ⟨copy, owes⟩
    · exact .idle _
    cases owes with
    | true => exact .returned hp
    | false => exact .idle _
  | bulkFail p failReason =>
    simp only [step]
    rcases hp : s.passes p with _ | ⟨copy, owes⟩
    · exact .idle _
    cases owes with
    | true => exact .idle _
    | false =>
      by_cases hb : failReason = none ↔ copy.mjId = ""
      · simp only [if_pos hb]
        exact .bulk hp
      · simp only [if_neg hb]
        exact .idle _
  | finish p =>
    simp only [step]
    rcases hp : s.passes p with _ | ⟨copy, owes⟩
    · exact .idle _
    cases owes with
    | true => exact .idle _
    | false => exact .finish hp
  | others db => exact .others db

/-! ### What an item can do -/

def ChargedTo (u q : Int) (task : Midjourney) : Prop := task.userId = u ∧ task.quota = q

theorem applyItem_spec (marshal : MarshalUrls) (task : Midjourney) (item : MidjourneyDto) {u q : Int}
    (h : ChargedTo u q task) : ChargedTo u q (applyItem marshal task item).1 ∧
      (applyItem marshal task item).1.status = item.status ∧
      ((applyItem marshal task item).2 = true → hasFailed (merge marshal task item) item = true) := by
  unfold applyItem
  by_cases hf : hasFailed (merge marshal task item) item = true
  · rw [if_pos hf]
    exact ⟨h, rfl, fun _ => hf⟩
  · rw [if_neg hf]
    exact ⟨h, rfl, nofun⟩

variable {row copy : Midjourney} {item : MidjourneyDto} {fault : Fault} {pass : Pass}

/-- An item either leaves the row alone and asks for nothing, or writes the copy over the status it
had, with the item's status. -/
theorem processItem_cases {marshal : MarshalUrls} {row' : Midjourney}
    {now : Int} {u q : Int} (hcopy : ChargedTo u q copy)
    (h : processItem marshal row copy item now fault = (pass, row')) :
    ChargedTo u q pass.copy ∧ ((row' = row ∧ pass.owes = false) ∨
      (checkMjTaskNeedUpdate marshal copy (timedOut copy item now) = true ∧
        row.status = copy.status ∧ row' = pass.copy ∧ row'.status = (timedOut copy item now).status ∧
        (pass.owes = true →
          hasFailed (merge marshal copy (timedOut copy item now)) (timedOut copy item now) = true))) := by
  unfold processItem at h
  obtain ⟨hsame, hstatus, howes⟩ := applyItem_spec marshal copy (timedOut copy item now) hcopy
  by_cases hn : checkMjTaskNeedUpdate marshal copy (timedOut copy item now) = true
  · simp only [hn, if_true] at h
    rcases hw : updateWithStatus row (applyItem marshal copy (timedOut copy item now)).1 copy.status
      fault with ⟨won, r⟩
    rw [hw] at h
    obtain ⟨rfl, rfl⟩ := Prod.mk.inj h
    refine ⟨hsame, ?_⟩
    rcases Cas.write_cases hw with ⟨rfl, hst, rfl⟩ | ⟨rfl, rfl⟩
    · exact .inr ⟨hn, hst, rfl, hstatus, fun ho => howes (by simpa using ho)⟩
    · exact .inl ⟨rfl, rfl⟩
  · simp only [hn, Bool.false_eq_true, if_false] at h
    obtain ⟨rfl, rfl⟩ := Prod.mk.inj h
    exact ⟨hcopy, .inl ⟨rfl, rfl⟩⟩

theorem increase_entries (db : DB) {task : Midjourney} (fault : Fault) {u q : Int} (h : ChargedTo u q task) :
    entriesOn (increase db task fault).journal (.wallet u) = entriesOn db.journal (.wallet u) ∨
      entriesOn (increase db task fault).journal (.wallet u) =
        entriesOn db.journal (.wallet u) ++ [⟨.wallet u, -q, -q⟩] := by
  obtain ⟨rfl, rfl⟩ := h
  unfold increase
  cases hi : increaseUserQuota db task.userId task.quota fault with
  | error e => exact .inl rfl
  | ok db' =>
    obtain ⟨-, -, rfl⟩ := quotaStatement_eq_ok.mp hi
    refine .inr ?_
    simp only [post_journal, entriesOn, List.filter_append]
    simp

/-! ### At most one refund -/

/-- A copy that may take an item: it is not `FAILURE` itself, and a reason that comes before `100%`
comes with the status `FAILURE`.  Items that change nothing are free. -/
def TakesItem (copy : Midjourney) (item : MidjourneyDto) : Prop :=
  checkMjTaskNeedUpdate marshal copy item = true →
    copy.status ≠ "FAILURE" ∧
      (item.progress ≠ "100%" → item.failReason ≠ "" → item.status = "FAILURE")
  deriving Decidable

def Careful : Action → Prop
  | .item p item now _ => ((s.passes p).all fun pass =>
      TakesItem marshal pass.copy (timedOut pass.copy item now)) = true
  | _ => True

instance (marshal : MarshalUrls) (s : Sys) (a : Action) : Decidable (Careful marshal s a) := by
  unfold Careful
  split <;> infer_instance

theorem status_of_hasFailed {marshal : MarshalUrls}
    (hreason : item.progress ≠ "100%" → item.failReason ≠ "" → item.status = "FAILURE")
    (h : hasFailed (merge marshal copy item) item = true) : item.status = "FAILURE" := by
  unfold hasFailed at h
  rcases Bool.or_eq_true_iff.mp h with h | h
  · obtain ⟨hp, hr⟩ := Bool.and_eq_true_iff.mp h
    exact hreason (of_decide_eq_true hp) (of_decide_eq_true hr)
  · exact of_decide_eq_true (Bool.and_eq_true_iff.mp h).2

def NoneOwes : Prop := Cas.Idle (fun pass : Pass => pass.owes = true) s.passes

def OnlyOwes (p : ℕ) : Prop := Cas.Solo (fun pass : Pass => pass.owes = true) s.passes p

/-- Nothing has been returned before the row is `FAILURE`; then either one pass may still owe the
refund, or it has been made, once. -/
structure Once (u q : Int) (s : Sys) : Prop where
  row : ChargedTo u q s.row
  copies : ∀ p pass, s.passes p = some pass → ChargedTo u q pass.copy
  tally : (s.row.status ≠ "FAILURE" ∧ entriesOn s.db.journal (.wallet u) = [] ∧ NoneOwes s) ∨
    (s.row.status = "FAILURE" ∧ entriesOn s.db.journal (.wallet u) = [] ∧ ∃ p, OnlyOwes s p) ∨
    (s.row.status = "FAILURE" ∧ entriesOn s.db.journal (.wallet u) = [⟨.wallet u, -q, -q⟩] ∧
      NoneOwes s)

section Step

variable {marshal : MarshalUrls} {u q : Int} {s s' : Sys} {a : Action} {p : ℕ} {v : Option Pass}

section

variable (hinv : Once u q s)

include hinv

theorem Once.copies_setPass (hnew : ∀ pass, v = some pass → ChargedTo u q pass.copy) :
    ∀ k pass, (s.setPass p v).passes k = some pass → ChargedTo u q pass.copy := by
  intro k pass hk
  rcases Cas.lookup_update hk with ⟨-, hv⟩ | ⟨-, hk⟩
  · exact hnew pass hv
  · exact hinv.copies k pass hk

theorem Once.setPass (hnew : ∀ pass, v = some pass → ChargedTo u q pass.copy ∧ ¬ pass.owes = true) :
    Once u q (s.setPass p v) := by
  have hidle : ∀ pass, v = some pass → ¬ pass.owes = true := fun pass hv => (hnew pass hv).2
  refine ⟨hinv.row, hinv.copies_setPass fun pass hv => (hnew pass hv).1, ?_⟩
  rcases hinv.tally with ⟨hst, he, hnone⟩ | ⟨hst, he, k, honly⟩ | ⟨hst, he, hnone⟩
  · exact .inl ⟨hst, he, hnone.update hidle⟩
  · exact .inr (.inl ⟨hst, he, k, honly.update hidle⟩)
  · exact .inr (.inr ⟨hst, he, hnone.update hidle⟩)

theorem Once.written (hlive : s.row.status ≠ "FAILURE") (hcopy : ChargedTo u q pass.copy) (hrow : row = pass.copy)
    (howes : pass.owes = true → row.status = "FAILURE") : Once u q ({ s with row }.setPass p (some pass)) := by
  obtain ⟨-, he, hnone⟩ | ⟨hst, -⟩ | ⟨hst, -⟩ := hinv.tally
  rotate_left
  · exact absurd hst hlive
  · exact absurd hst hlive
  have hnew : ∀ pass', some pass = some pass' → ChargedTo u q pass'.copy := by
    intro pass' hv
    obtain rfl := Option.some.inj hv
    exact hcopy
  refine ⟨hrow ▸ hcopy, hinv.copies_setPass hnew, ?_⟩
  by_cases hf : row.status = "FAILURE"
  · exact .inr (.inl ⟨hf, he, p, Cas.Solo.update_self hnone.solo⟩)
  · refine .inl ⟨hf, he, hnone.update fun pass' hv ho => ?_⟩
    obtain rfl := Option.some.inj hv
    exact hf (howes ho)

theorem Once.returned (hp : s.passes p = some ⟨copy, true⟩) :
    Once u q ({ s with db := increase s.db copy fault }.setPass p (some ⟨copy, false⟩)) := by
  have hcopy := hinv.copies p _ hp
  obtain ⟨-, -, hnone⟩ | ⟨hst, he, k, honly⟩ | ⟨-, -, hnone⟩ := hinv.tally
  · exact absurd rfl (hnone p _ hp)
  swap
  · exact absurd rfl (hnone p _ hp)
  obtain rfl := honly p _ hp rfl
  have hnew : ∀ pass', some (⟨copy, false⟩ : Pass) = some pass' → ¬ pass'.owes = true := by
    intro pass' hv
    obtain rfl := Option.some.inj hv
    exact Bool.false_ne_true
  have hnone := honly.idle_update hnew
  refine ⟨hinv.row, hinv.copies_setPass fun pass' hv => ?_, ?_⟩
  · obtain rfl := Option.some.inj hv
    exact hcopy
  rcases increase_entries s.db fault hcopy with hsame | hone
  · exact .inr (.inl ⟨hst, hsame.trans he, p, hnone.solo⟩)
  · rw [he, List.nil_append] at hone
    exact .inr (.inr ⟨hst, hone, hnone⟩)

theorem once_stepped (hcond : Careful marshal s a) (hstep : Stepped marshal s a s') : Once u q s' := by
  cases hstep with
  | idle => exact hinv
  | read hfree hread =>
    refine hinv.setPass fun pass hv => ?_
    obtain rfl := Option.some.inj hv
    exact ⟨hinv.row, Bool.false_ne_true⟩
  | item hp h =>
    rename_i p copy row item now fault pass
    have hcopy := hinv.copies p _ hp
    have htakes : TakesItem marshal copy (timedOut copy item now) := by
      have hall : ((s.passes p).all fun pass =>
        TakesItem marshal pass.copy (timedOut pass.copy item now)) = true := hcond
      rw [hp] at hall
      exact of_decide_eq_true hall
    obtain ⟨hcopy', ⟨hrow, howes⟩ | ⟨hneed, hst, hrow, hstatus, hfailed⟩⟩ := processItem_cases hcopy h
    · subst hrow
      refine Once.setPass hinv fun pass' hv => ?_
      obtain rfl := Option.some.inj hv
      exact ⟨hcopy', by simp [howes]⟩
    · obtain ⟨hlive, hreason⟩ := htakes hneed
      refine hinv.written (hst ▸ hlive) hcopy' hrow fun ho => ?_
      rw [hstatus]
      exact status_of_hasFailed hreason (hfailed ho)
  | returned hp => exact hinv.returned hp
  | bulk hp =>
    refine ⟨hinv.row, hinv.copies, .inr ?_⟩
    rcases hinv.tally with ⟨-, he, hnone⟩ | ⟨-, he, honly⟩ | ⟨-, he, hnone⟩
    · exact .inl ⟨rfl, he, 0, hnone.solo⟩
    · exact .inl ⟨rfl, he, honly⟩
    · exact .inr ⟨rfl, he, hnone⟩
  | finish hp => exact hinv.setPass fun pass hv => by cases hv
  | others db => exact ⟨hinv.row, hinv.copies, hinv.tally⟩

end

end Step

/-- **One refund**: in every interleaving of passes in which each item meets a copy that may take it,
the user's quota is increased for the task at most once, and by exactly the task's quota. -/
theorem quota_returned_once {marshal : MarshalUrls} {row : Midjourney} {db : DB} {as : List Action}
    (hjournal : entriesOn db.journal (.wallet row.userId) = [])
    (hcond : Along (step marshal) (Careful marshal) (Sys.start row db) as) :
    let s := run (step marshal) (Sys.start row db) as
    entriesOn s.db.journal (.wallet row.userId) = [] ∨
      entriesOn s.db.journal (.wallet row.userId) = [⟨.wallet row.userId, -row.quota, -row.quota⟩] := by
  intro s
  have hnone : NoneOwes (Sys.start row db) := fun p pass hp => by cases hp
  have hstart : Once row.userId row.quota (Sys.start row db) := by
    refine ⟨⟨rfl, rfl⟩, ?_, ?_⟩
    · intro p pass hp
      cases hp
    by_cases hf : row.status = "FAILURE"
    · exact .inr (.inl ⟨hf, hjournal, 0, hnone.solo⟩)
    · exact .inl ⟨hf, hjournal, hnone⟩
  have hinv : Once row.userId row.quota s :=
    run_inv (fun t a hi ha => once_stepped hi ha (stepped marshal t a)) hstart hcond
  rcases hinv.tally with ⟨-, he, -⟩ | ⟨-, he, -⟩ | ⟨-, he, -⟩
  · exact .inl he
  · exact .inl he
  · exact .inr he

def exampleTask : Midjourney :=
  { code := 1, userId := 1, mjId := "m", promptEn := "", state := "", submitTime := 0
    startTime := 0, finishTime := 0, imageUrl := "", videoUrl := "", videoUrls := ""
    status := "IN_PROGRESS", progress := "10%", failReason := "", quota := 100, buttons := ""
    properties := "" }

def exampleDB : DB :=
  { userQuota := fun _ => 0, tokenQuota := fun _ => 0, subs := ∅, records := ∅, journal := [] }

def reports (status progress failReason : String) : MidjourneyDto :=
  { promptEn := "", state := "", submitTime := 0, startTime := 0, finishTime := 0, imageUrl := ""
    videoUrl := "", videoUrls := [], status, progress
    failReason, buttons := none, properties := none }

/-- Two passes see the task fail, and the first response names it twice. -/
theorem quota_returned_once_contended :
    let s := run (step fun _ => none) (Sys.start exampleTask exampleDB)
      [.read 0, .read 1, .item 0 (reports "FAILURE" "100%" "banned") 5 none, .returnQuota 0 none,
        .item 0 (reports "FAILURE" "100%" "banned") 5 none,
        .item 1 (reports "FAILURE" "100%" "banned") 6 none, .finish 0, .finish 1]
    s.db.journal ≠ [] ∧ (entriesOn s.db.journal (.wallet 1) = [] ∨
      entriesOn s.db.journal (.wallet 1) = [⟨.wallet 1, -100, -100⟩]) :=
  ⟨by decide, quota_returned_once rfl (by decide)⟩

/-- An item that fails before `100%`, named twice in one response or reported to two passes without a change of
status: each update matches the row's `FAILURE`, and the quota is returned twice. -/
theorem quota_returned_twice : (run (step fun _ => none) (Sys.start exampleTask exampleDB)
      [.read 0, .item 0 (reports "FAILURE" "50%" "banned") 5 none, .returnQuota 0 none,
        .item 0 (reports "FAILURE" "50%" "banned") 5 none, .returnQuota 0 none]).db.journal =
      [⟨.wallet 1, -100, -100⟩, ⟨.wallet 1, -100, -100⟩] ∧
    (run (step fun _ => none) (Sys.start exampleTask exampleDB)
      [.read 0, .read 1, .item 0 (reports "IN_PROGRESS" "50%" "banned") 5 none,
        .item 1 (reports "IN_PROGRESS" "50%" "banned") 6 none, .returnQuota 0 none,
        .returnQuota 1 none]).db.journal = [⟨.wallet 1, -100, -100⟩, ⟨.wallet 1, -100, -100⟩] := by
  decide

end WynthApi.MjPolling
