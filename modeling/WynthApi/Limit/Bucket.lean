import Mathlib.Tactic.Linarith
import WynthApi.Lib.Run

/-!
# The token bucket of a user (common/limiter/lua/rate_limit.lua, middleware/model-rate-limit.go)

A limit of `m` requests in `d` seconds is a bucket of `m * d` tokens that gets `m` of them a second; a
request costs `d`.  Numbers are exact here: Lua's are up to `2 ^ 53`, and the capacity is an `int64` product.
-/

namespace WynthApi.Limit.Bucket

open StepSys

structure State where
  (tokens lastTime : ℤ)
  deriving DecidableEq

def refill (rate capacity now : ℤ) : Option State → ℤ
  | none => capacity
  | some s => min capacity (s.tokens + (now - s.lastTime) * rate)

def take (requested rate capacity now : ℤ) (bucket : Option State) : Bool × State :=
  let tokens := refill rate capacity now bucket
  if requested ≤ tokens then (true, ⟨tokens - requested, now⟩) else (false, ⟨tokens, now⟩)

def capacity (m d : ℤ) : ℤ := (m * d).bmod (2 ^ 64)

def allow (m d now : ℤ) (bucket : Option State) : Bool × State := take d m (capacity m d) now bucket

structure Run where
  bucket : Option State := none
  now : ℤ
  passed : List ℤ := []

def step (m d : ℤ) (r : Run) (now : ℤ) : Run where
  bucket := some (allow m d now r.bucket).2
  now
  passed := if (allow m d now r.bucket).1 = true then r.passed ++ [now] else r.passed

variable {m d t l : ℤ} {r : Run} {now : ℤ}

theorem capacity_eq (hm : 0 < m) (hd : 0 < d) (hcap : m * d ≤ 2 ^ 53) : capacity m d = m * d := by
  have hpos := Int.mul_pos hm hd
  exact Int.bmod_eq_of_le (by omega) (by omega)

def within (t l : ℤ) (times : List ℤ) : ℤ := times.countP fun x => t ≤ x ∧ x ≤ t + l

/-- **Potential**: what was let through since `t` and what is left was there at `t` or came since. -/
structure Paid (m d t l : ℤ) (r : Run) : Prop where
  level : ∀ s ∈ r.bucket, 0 ≤ s.tokens ∧ s.tokens ≤ m * d ∧ s.lastTime = r.now
  fresh : r.bucket = none ∨ r.now < t → within t l r.passed = 0
  paid : t ≤ r.now → r.now ≤ t + l → ∀ s ∈ r.bucket, within t l r.passed * d + s.tokens ≤ m * d + m * (r.now - t)
  bound : within t l r.passed * d ≤ m * d + m * l

theorem refill_le (hm : 0 < m) (hd : 0 < d) (h : Paid m d t l r) (hle : r.now ≤ now) :
    0 ≤ refill m (m * d) now r.bucket ∧ refill m (m * d) now r.bucket ≤ m * d ∧ (t ≤ now → now ≤ t + l →
      within t l r.passed * d + refill m (m * d) now r.bucket ≤ m * d + m * (now - t)) := by
  have hpos := Int.mul_pos hm hd
  cases hb : r.bucket with
  | none =>
    rw [h.fresh (.inl hb)]
    refine ⟨hpos.le, le_rfl, fun ht _ => ?_⟩
    have hsince := mul_nonneg hm.le (sub_nonneg.mpr ht)
    simp only [refill]
    linarith
  | some s =>
    obtain ⟨hzero, hcap, hlast⟩ := h.level s hb
    have hgain : 0 ≤ (now - s.lastTime) * m := mul_nonneg (by omega) hm.le
    refine ⟨le_min hpos.le (by omega), min_le_left _ _, fun ht hl => ?_⟩
    by_cases hbefore : r.now < t
    · have hsince := mul_nonneg hm.le (sub_nonneg.mpr ht)
      have hfull : refill m (m * d) now (some s) ≤ m * d := min_le_left _ _
      rw [h.fresh (.inr hbefore)]
      linarith
    · have hpaid := h.paid (by omega) (by omega) s hb
      have hfilled : refill m (m * d) now (some s) ≤ s.tokens + (now - s.lastTime) * m := min_le_right _ _
      rw [hlast] at hfilled
      linarith

theorem within_append (times : List ℤ) :
    within t l (times ++ [now]) = within t l times + if t ≤ now ∧ now ≤ t + l then 1 else 0 := by
  simp [within, List.countP_append, List.countP_singleton]

theorem Paid.step (hm : 0 < m) (hd : 0 < d) (hcap : m * d ≤ 2 ^ 53) (h : Paid m d t l r) (hle : r.now ≤ now) :
    Paid m d t l (step m d r now) := by
  obtain ⟨hzero, hfull, hpaid⟩ := refill_le hm hd h hle
  unfold Bucket.step allow take
  rw [capacity_eq hm hd hcap]
  generalize refill m (m * d) now r.bucket = tokens at hzero hfull hpaid ⊢
  have hold := h.bound
  have hnone : now < t → within t l r.passed = 0 := fun hbefore => h.fresh (.inr (by omega))
  have hl : now ≤ t + l → m * (now - t) ≤ m * l := fun hin => mul_le_mul_of_nonneg_left (by omega) hm.le
  by_cases hallowed : d ≤ tokens
  · simp only [if_pos hallowed, if_true]
    refine ⟨?_, ?_, ?_, ?_⟩
    · rintro _ ⟨⟩
      exact ⟨sub_nonneg.mpr hallowed, (sub_le_self _ hd.le).trans hfull, rfl⟩
    · rintro (h | (hbefore : now < t))
      · cases h
      · rw [within_append, hnone hbefore, if_neg (by omega)]
        rfl
    · rintro ht hin _ ⟨⟩
      have hp := hpaid ht hin
      rw [within_append, if_pos ⟨ht, hin⟩]
      linarith
    · rw [within_append]
      split_ifs with hin
      · have hp := hpaid hin.1 hin.2
        have hlater := hl hin.2
        linarith
      · linarith
  · simp only [if_neg hallowed]
    refine ⟨?_, ?_, ?_, hold⟩
    · rintro _ ⟨⟩
      exact ⟨hzero, hfull, rfl⟩
    · rintro (h | hbefore)
      · cases h
      · exact hnone hbefore
    · rintro ht hin _ ⟨⟩
      exact hpaid ht hin

/-- **The bucket bounds the requests** of every interval, if its capacity is exact. -/
theorem bucket_bounds (hm : 0 < m) (hd : 0 < d) (hcap : m * d ≤ 2 ^ 53) {start : ℤ} {times : List ℤ}
    (hclock : Along (step m d) (fun r now => r.now ≤ now) { now := start } times) :
    let r := run (step m d) { now := start } times
    (∀ s ∈ r.bucket, 0 ≤ s.tokens ∧ s.tokens ≤ capacity m d) ∧
    (∀ t l, 0 ≤ l → within t l r.passed * d ≤ m * d + m * l) ∧
    ∀ now, (allow m d now r.bucket).1 = false → refill m (capacity m d) now r.bucket < d := by
  have hpaid : ∀ t l, 0 ≤ l → Paid m d t l (run (step m d) { now := start } times) := by
    intro t l hl
    have hstart : Paid m d t l { now := start } := by
      refine ⟨by simp, fun _ => rfl, by simp, ?_⟩
      show 0 * d ≤ m * d + m * l
      rw [zero_mul]
      exact add_nonneg (Int.mul_pos hm hd).le (mul_nonneg hm.le hl)
    exact run_inv (fun _ _ h hle => h.step hm hd hcap hle) hstart hclock
  refine ⟨fun s hs => ?_, fun t l hl => (hpaid t l hl).bound, fun now hrefused => ?_⟩
  · rw [capacity_eq hm hd hcap]
    obtain ⟨hzero, hfull, -⟩ := (hpaid 0 0 le_rfl).level s hs
    exact ⟨hzero, hfull⟩
  · by_contra henough
    rw [allow, take, if_pos (not_lt.mp henough)] at hrefused
    cases hrefused

theorem bucket_bounds_two :
    within 0 30 (run (step 1 60) { now := 0 } [0, 30, 60]).passed * 60 ≤ 1 * 60 + 1 * 30 :=
  (bucket_bounds (m := 1) (d := 60) (by decide) (by decide) (by decide) (by decide)).2.1 0 30 (by decide)

/-- The capacity of this limit is beyond an `int64`: the bucket starts with less than nothing. -/
theorem overflowed_bucket_negative :
    ((run (step 307445734561825860 60) { now := 0 } [0]).bucket.map (·.tokens)) = some (-16) := by
  decide

end WynthApi.Limit.Bucket
