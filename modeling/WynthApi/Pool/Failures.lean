import Mathlib.Algebra.Order.Group.Int
import Mathlib.Logic.Function.Basic
import WynthApi.Lib.Run

/-!
# Cooldowns and expiry of a pool account (service/account_pool_failure.go)

A failed attempt gives its account a cooldown, expires it or blocks one model.  The counters that decide are kept as
texts; a column is modelled by what its parser makes of the text: any numbers, or no map at all.

What is read off the texts of an error (its phrases and reset times) is part of the failure here.  The failure
counter is a machine integer, which wraps; the count of 403s has no bound.
-/

namespace WynthApi.Pool.Failures

open StepSys List

inductive AccountStatus where
  | enabled
  | disabled
  | expired
  | deleted
  deriving DecidableEq

/-- `accountPoolFailureState`; a text that is blank or no such object gives the zero value. -/
structure FailureState where
  consecutiveFailures : Int64 := 0
  lastStatus : ℤ := 0
  http403Count : ℤ := 0
  http403WindowStart : ℤ := 0
  last401At : ℤ := 0

/-- The columns that a failure reads or sets.  `modelRateLimits` is the parsed map, `none` if it is nil: the
text is `null` or no object of numbers. -/
structure AccountRow where
  status : AccountStatus := .enabled
  rateLimitedUntil : ℤ := 0
  tempDisabledUntil : ℤ := 0
  overloadUntil : ℤ := 0
  failureState : FailureState := {}
  modelRateLimits : Option (String → Option ℤ) := some fun _ => none

structure FailureSettings where
  rateLimit429Fallback : ℤ := 5
  rateLimit429FallbackEnabled : Bool := true
  http403Threshold : ℤ := 3
  http403Window : ℤ := 180 * 60
  http403Cooldown : ℤ := 10 * 60
  oauth401Cooldown : ℤ := 10 * 60
  oauth401RestrikeWindow : ℤ := 30 * 60
  overloadCooldown : ℤ := 10 * 60
  transportPersistent : ℤ := 10 * 60
  transportTransient : ℤ := 60
  escalation5xxTiers : List ℤ := [60, 300, 1800]
  escalation5xxHardCapCount : ℤ := 6
  modelNotFoundCooldown : ℤ := 30 * 60

def accountPoolFailureConfig : FailureSettings := {}

/-- `modelNotFound` and `hasPhrase` are found in the texts, `resetAt` by the parser of the platform. -/
structure Failure where
  upstreamStatusCode : ℤ
  statusCode : ℤ := 0
  doRequestFailed : Bool := false
  persistent : Bool := false
  requestedModel : String := ""
  modelNotFound : Bool := false
  hasPhrase : Bool := false
  isAnthropic : Bool := false
  isOAuth : Bool := false
  resetAt : Option ℤ := none

inductive FailureClass where
  | modelNotFound
  | transport (persistent : Bool)
  | unauthorized (isOAuth : Bool)
  | forbidden
  | tooManyRequests
  | requestTimeout
  | overload
  | serverError
  | badRequest
  | outOfRange
  | other
  deriving DecidableEq

def Failure.code (err : Failure) : ℤ :=
  if err.upstreamStatusCode = 0 then err.statusCode else err.upstreamStatusCode

def Failure.toClass (err : Failure) : FailureClass :=
  if err.requestedModel ≠ "" ∧ (err.code = 404 ∨ err.code = 400) ∧ err.modelNotFound = true then .modelNotFound
  else if err.doRequestFailed = true ∧ err.upstreamStatusCode = 0 then .transport err.persistent
  else if err.code = 401 then .unauthorized err.isOAuth
  else if err.code = 403 then .forbidden
  else if err.code = 429 then .tooManyRequests
  else if err.code = 408 then .requestTimeout
  else if err.code = 529 then .overload
  else if 500 ≤ err.code ∧ err.code ≤ 599 then .serverError
  else if err.code = 400 then .badRequest
  else if err.code < 100 ∨ 599 < err.code then .outOfRange
  else .other

def AccountRow.expire (a : AccountRow) (failureState : FailureState) : AccountRow :=
  { a with status := .expired, rateLimitedUntil := 0, tempDisabledUntil := 0, overloadUntil := 0, failureState }

def AccountRow.disable (a : AccountRow) (until_ : ℤ) (failureState : FailureState) : AccountRow :=
  { a with tempDisabledUntil := max a.tempDisabledUntil until_, failureState }

/-- A 403 counts in the stored window, or starts a new one. -/
def FailureState.forbid (fs : FailureState) (code now : ℤ) : FailureState :=
  if fs.http403WindowStart = 0 ∨ accountPoolFailureConfig.http403Window < now - fs.http403WindowStart then
    { fs with http403WindowStart := now, http403Count := 1, lastStatus := code }
  else { fs with http403Count := fs.http403Count + 1, lastStatus := code }

/-- The row after the updates of `classifyAccountPoolFailure`; `none` is a panic. -/
def classifyAccountPoolFailure (a : AccountRow) (err : Failure) (now : ℤ) : Option AccountRow :=
  let cfg := accountPoolFailureConfig
  let fs := a.failureState
  let failed : FailureState :=
    { fs with consecutiveFailures := fs.consecutiveFailures + 1, lastStatus := err.code }
  let capped := cfg.escalation5xxHardCapCount ≤ failed.consecutiveFailures.toInt
  match err.toClass with
  | .modelNotFound =>
    -- a write to a nil map panics
    a.modelRateLimits.map fun limits =>
      { a with modelRateLimits := Function.update limits err.requestedModel (now + cfg.modelNotFoundCooldown) }
  | .other => some a
  | .transport true =>
    some (if capped then a.expire failed else a.disable (now + cfg.transportPersistent) failed)
  | .transport false | .requestTimeout => some (a.disable (now + cfg.transportTransient) fs)
  | .unauthorized true =>
    some (if 0 < fs.last401At ∧ now - fs.last401At ≤ cfg.oauth401RestrikeWindow then a.expire fs
      else a.disable (now + cfg.oauth401Cooldown) { fs with last401At := now, lastStatus := err.code })
  | .unauthorized false => some (a.expire fs)
  | .forbidden =>
    let fs := fs.forbid err.code now
    some (if cfg.http403Threshold ≤ fs.http403Count then a.expire fs
      else a.disable (now + cfg.http403Cooldown) fs)
  | .tooManyRequests =>
    let fallback := if err.isAnthropic = false ∧ cfg.rateLimit429FallbackEnabled = true
      then some (now + max 1 (min 7200 cfg.rateLimit429Fallback)) else none
    some { a with rateLimitedUntil := ((err.resetAt.or fallback).map (max a.rateLimitedUntil)).getD a.rateLimitedUntil }
  | .overload => some { a with overloadUntil := max a.overloadUntil (now + cfg.overloadCooldown) }
  | .serverError =>
    let tiers := cfg.escalation5xxTiers
    let index := min (failed.consecutiveFailures - 1).toInt (tiers.length - 1)
    -- an index below zero panics
    if index < 0 then none
    else some (if capped then a.expire failed else a.disable (now + tiers.getD index.toNat 0) failed)
  | .badRequest => some (if err.hasPhrase = true then a.expire fs else a)
  | .outOfRange => some (a.disable (now + 60) fs)

/-- **No panic** exactly if the model limits are a map, should one be set, and the failure counter is not negative,
should it be an index. -/
theorem classify_returns (a : AccountRow) (err : Failure) (now : ℤ) :
    classifyAccountPoolFailure a err now ≠ none ↔
      (err.toClass = .modelNotFound → a.modelRateLimits ≠ none) ∧
      (err.toClass = .serverError → 0 ≤ a.failureState.consecutiveFailures) := by
  unfold classifyAccountPoolFailure
  cases hclass : err.toClass with
  | modelNotFound => simp
  | serverError =>
    -- the counter that is stepped up and down again is the stored one, also where it wraps
    have hindex : a.failureState.consecutiveFailures + 1 - 1 = a.failureState.consecutiveFailures := by
      rw [Int64.sub_eq_add_neg, Int64.add_assoc, Int64.add_right_neg, Int64.add_zero]
    have hlength : accountPoolFailureConfig.escalation5xxTiers.length = 3 := rfl
    simp only [hindex, hlength, Int64.le_iff_toInt_le]
    split_ifs <;> simp <;> omega
  | transport persistent => cases persistent <;> simp
  | unauthorized isOAuth => cases isOAuth <;> simp
  | _ => simp

/-- A model that is not found on an account whose limits are no map, and a server error after a negative counter. -/
theorem classify_panics :
    let notFound : Failure := { upstreamStatusCode := 404, requestedModel := "m", modelNotFound := true }
    (classifyAccountPoolFailure { modelRateLimits := none } notFound 1).isNone = true ∧
    (classifyAccountPoolFailure { failureState := { consecutiveFailures := -1 } } { upstreamStatusCode := 500 } 1).isNone =
      true := by
  decide

/-! ### The window of 403s -/

structure Account where
  row : AccountRow := {}
  now : ℤ := 1
  forbidden : List ℤ := []

/-- A failure is recorded in a transaction, which a panic undoes. -/
def record (s : Account) (f : Failure × ℤ) : Account where
  row := (classifyAccountPoolFailure s.row f.1 f.2).getD s.row
  now := f.2
  forbidden := if f.1.toClass = .forbidden then s.forbidden ++ [f.2] else s.forbidden

/-- Times do not decrease, and a 403 after the end of the stored window has none within a window length before it. -/
def Sparse (s : Account) (f : Failure × ℤ) : Prop :=
  s.now ≤ f.2 ∧ (f.1.toClass = .forbidden → 10800 < f.2 - s.row.failureState.http403WindowStart →
    ∀ t ∈ s.forbidden, 10800 < f.2 - t)

/-- Either no 403 has come, or those since the stored start are counted and those before it are out of its reach. -/
def Window (start count now : ℤ) (times : List ℤ) : Prop :=
  0 < now ∧ (start = 0 ∧ times = [] ∨ 0 < start ∧ start ≤ now ∧ count = times.countP (start ≤ ·) ∧
    ∀ t ∈ times, t < start → 10800 < start - t)

variable {s : Account} {f : Failure × ℤ} {fs : FailureState} {now : ℤ} {times : List ℤ}

theorem Window.later {start count now' : ℤ} (h : Window start count now times) (hle : now ≤ now') :
    Window start count now' times :=
  ⟨h.1.trans_le hle, h.2.imp_right fun hset => ⟨hset.1, hset.2.1.trans hle, hset.2.2⟩⟩

/-- A 403 counts those of the last window length. -/
theorem Window.forbid (h : Window fs.http403WindowStart fs.http403Count now times) (code : ℤ)
    (hfar : 10800 < now - fs.http403WindowStart → ∀ t ∈ times, 10800 < now - t) :
    Window (fs.forbid code now).http403WindowStart (fs.forbid code now).http403Count now (times ++ [now]) ∧
    (fs.forbid code now).http403Count = (times ++ [now]).countP (now - · ≤ 10800) := by
  obtain ⟨hclock, hcase⟩ := h
  unfold FailureState.forbid
  by_cases hrestart : fs.http403WindowStart = 0 ∨ accountPoolFailureConfig.http403Window < now - fs.http403WindowStart
  · have hold : ∀ t ∈ times, 10800 < now - t := by
      rcases hcase with ⟨-, rfl⟩ | ⟨hpos, -⟩
      · simp
      · exact hfar (hrestart.resolve_left hpos.ne')
    have hone : ∀ p : ℤ → Bool, p now = true → (∀ t, 10800 < now - t → p t = false) →
        (1 : ℤ) = (times ++ [now]).countP p := by
      intro p hnow hp
      have hnone : times.countP p = 0 := countP_eq_zero.mpr fun t ht => by simp [hp t (hold t ht)]
      simp [countP_append, hnone, hnow]
    rw [if_pos hrestart]
    refine ⟨⟨hclock, .inr ⟨hclock, le_rfl, hone _ (by simp) ?_, ?_⟩⟩, hone _ (by simp) ?_⟩
    · exact fun t ht => by simp; omega
    · exact forall_mem_append.mpr ⟨fun t ht _ => hold t ht, by simp⟩
    · exact fun t ht => by simp; omega
  · obtain ⟨hzero, hover⟩ := not_or.mp hrestart
    have hnear : now - fs.http403WindowStart ≤ 10800 := not_lt.mp hover
    obtain ⟨hpos, hle, hcount, hout⟩ := hcase.resolve_left fun hnone => hzero hnone.1
    have hsame : times.countP (now - · ≤ 10800) = times.countP (fs.http403WindowStart ≤ ·) := by
      refine countP_congr fun t ht => ?_
      have hreach := hout t ht
      simp only [decide_eq_true_eq]
      omega
    rw [if_neg hrestart]
    refine ⟨⟨hclock, .inr ⟨hpos, hle, ?_, ?_⟩⟩, ?_⟩
    · simp [countP_append, hcount, hle]
    · exact forall_mem_append.mpr ⟨hout, by simpa using fun hlt => absurd hle (not_le.mpr hlt)⟩
    · rw [countP_append, hsame, Int.natCast_add, ← hcount]
      simp

theorem record_other (hclass : f.1.toClass ≠ .forbidden) :
    (record s f).row.failureState.http403WindowStart = s.row.failureState.http403WindowStart ∧
    (record s f).row.failureState.http403Count = s.row.failureState.http403Count := by
  unfold record classifyAccountPoolFailure
  cases hc : f.1.toClass with
  | forbidden => exact absurd hc hclass
  | modelNotFound => cases hlimits : s.row.modelRateLimits <;> exact ⟨rfl, rfl⟩
  | serverError | badRequest =>
    dsimp only
    split_ifs <;> exact ⟨rfl, rfl⟩
  | transport again | unauthorized again =>
    cases again
    · exact ⟨rfl, rfl⟩
    · dsimp only
      split_ifs <;> exact ⟨rfl, rfl⟩
  | _ => exact ⟨rfl, rfl⟩

theorem record_forbidden (hclass : f.1.toClass = .forbidden) :
    let fs := s.row.failureState.forbid f.1.code f.2
    record s f = ⟨if 3 ≤ fs.http403Count then s.row.expire fs else s.row.disable (f.2 + 600) fs, f.2,
      s.forbidden ++ [f.2]⟩ := by
  simp only [record, classifyAccountPoolFailure, hclass, if_true]
  rfl

def Inv (s : Account) : Prop :=
  Window s.row.failureState.http403WindowStart s.row.failureState.http403Count s.now s.forbidden

theorem Inv.record (h : Inv s) (hsparse : Sparse s f) : Inv (record s f) := by
  have hlater := h.later hsparse.1
  by_cases hclass : f.1.toClass = .forbidden
  · have hforbid := (hlater.forbid f.1.code (hsparse.2 hclass)).1
    rw [record_forbidden hclass]
    unfold Inv
    dsimp only
    split_ifs <;> exact hforbid
  · obtain ⟨hstart, hcount⟩ := record_other (s := s) hclass
    have htimes : (Failures.record s f).forbidden = s.forbidden := if_neg hclass
    rw [Inv, hstart, hcount, htimes]
    exact hlater

/-- **The 403 window** decides as a rolling one on sparse histories of a row without one. -/
theorem forbidden_expires_iff {a : AccountRow} (ha : a.failureState.http403WindowStart = 0)
    {history : List (Failure × ℤ)} (hhistory : Along record Sparse { row := a } history)
    (hsparse : Sparse (run record { row := a } history) f) (hclass : f.1.toClass = .forbidden)
    (henabled : (run record { row := a } history).row.status = .enabled) :
    (record (run record { row := a } history) f).row.status = .expired ↔
      3 ≤ (record (run record { row := a } history) f).forbidden.countP (f.2 - · ≤ 10800) := by
  have hinv : Inv (run record { row := a } history) :=
    run_inv (fun _ _ h hs => h.record hs) ⟨one_pos, .inl ⟨ha, rfl⟩⟩ hhistory
  have hcount := ((hinv.later hsparse.1).forbid f.1.code (hsparse.2 hclass)).2
  rw [record_forbidden hclass]
  dsimp only
  split_ifs with hexpired
  · exact iff_of_true rfl (by omega)
  · refine iff_of_false (fun h => ?_) (by omega)
    have hsame : AccountStatus.enabled = .expired := henabled.symm.trans h
    cases hsame

def forbiddenOf (now : ℤ) : Failure × ℤ := ({ upstreamStatusCode := 403 }, now)

theorem forbidden_expires_third :
    let s := run record {} ([1, 2].map forbiddenOf)
    (record s (forbiddenOf 3)).row.status = .expired ↔
      3 ≤ (record s (forbiddenOf 3)).forbidden.countP (3 - · ≤ 10800) :=
  forbidden_expires_iff (f := forbiddenOf 3) rfl (by unfold Sparse; decide) (by unfold Sparse; decide) (by decide) (by decide)

/-- The last three 403s come within half an hour, across the end of the stored window. -/
theorem straddling_window_kept :
    let s := run record {} ([1, 10000, 10802, 11402].map forbiddenOf)
    s.row.status = .enabled ∧ s.forbidden.countP (11402 - · ≤ 10800) = 3 := by
  decide

end WynthApi.Pool.Failures
