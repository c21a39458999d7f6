import Mathlib.Data.Int.Order.Basic
import Mathlib.Logic.Function.Basic
import Mathlib.Tactic.SplitIfs

/-!
# Numbered blocks that are opened, filled and closed

A stream opens a block under an index, fills it while it is open and closes it; an index is used for one block
only.  `play` follows the status of every index and fails on an event that is out of place. `layout` is the
board of a stream that numbers its blocks from 0 on without a gap.
-/

namespace Blocks

open Function List

variable {κ : Type}

inductive Event (κ : Type)
  | start (i : ℤ) (k : κ)
  | delta (i : ℤ) (k : κ)
  | stop (i : ℤ)
  deriving DecidableEq, Repr

inductive Status (κ : Type)
  | fresh
  | opened (k : κ)
  | closed
  deriving DecidableEq, Repr

abbrev Board (κ : Type) := ℤ → Status κ

def blank : Board κ := fun _ => .fresh

section play

variable [DecidableEq κ]

/-- A block is opened once, filled with what it was opened for, and closed while it is open. -/
def step (b : Board κ) : Event κ → Option (Board κ)
  | .start i k => if b i = .fresh then some (Function.update b i (.opened k)) else none
  | .delta i k => if b i = .opened k then some b else none
  | .stop i =>
    match b i with
    | .opened _ => some (Function.update b i .closed)
    | _ => none

def play (b : Board κ) : List (Event κ) → Option (Board κ)
  | [] => some b
  | e :: es => (step b e).bind fun b' => play b' es

def Complete (es : List (Event κ)) : Prop :=
  ∃ b, play blank es = some b ∧ ∀ i k, b i ≠ .opened k

@[simp] theorem play_nil (b : Board κ) : play b [] = some b := rfl

theorem play_cons (b : Board κ) (e : Event κ) (es : List (Event κ)) :
    play b (e :: es) = (step b e).bind fun b' => play b' es := rfl

theorem play_append (b : Board κ) (es fs : List (Event κ)) :
    play b (es ++ fs) = (play b es).bind fun b' => play b' fs := by
  induction es generalizing b with
  | nil => rfl
  | cons e es ih =>
    rw [cons_append, play_cons, play_cons, Option.bind_assoc]
    cases step b e with
    | none => rfl
    | some b' => exact ih b'

variable {b : Board κ} {es : List (Event κ)}

theorem play_append_none (h : play b es = none) (fs : List (Event κ)) : play b (es ++ fs) = none := by
  rw [play_append, h]
  rfl

/-! ### An index that is not started -/

variable {b' : Board κ}

theorem step_other {e : Event κ} {i : ℤ} (h : step b e = some b')
    (hfresh : b i = .fresh) (he : ∀ k, e ≠ .start i k) : b' i = .fresh := by
  cases e with
  | start j k =>
    have hij : i ≠ j := fun hij => he k (by rw [hij])
    simp only [step] at h
    split_ifs at h
    cases h
    rw [update_of_ne hij]
    exact hfresh
  | delta j k =>
    simp only [step] at h
    split_ifs at h
    cases h
    exact hfresh
  | stop j =>
    simp only [step] at h
    cases hj : b j with
    | fresh | closed => simp [hj] at h
    | opened k =>
      have hij : i ≠ j := by
        rintro rfl
        rw [hfresh] at hj
        cases hj
      simp only [hj, Option.some.injEq] at h
      rw [← h, update_of_ne hij]
      exact hfresh

theorem play_other {i : ℤ} (h : play b es = some b')
    (hfresh : b i = .fresh) (hes : ∀ k, .start i k ∉ es) : b' i = .fresh := by
  induction es generalizing b with
  | nil =>
    cases h
    exact hfresh
  | cons e es ih =>
    rw [play_cons] at h
    obtain ⟨c, hc, h⟩ := Option.bind_eq_some_iff.mp h
    refine ih h (step_other hc hfresh ?_) fun k hk => hes k (mem_cons_of_mem _ hk)
    exact fun k hk => hes k (hk ▸ mem_cons_self)

theorem play_stop_fresh {i : ℤ} (hfresh : b i = .fresh)
    (hes : ∀ k, .start i k ∉ es) (hstop : .stop i ∈ es) : play b es = none := by
  obtain ⟨as, cs, rfl⟩ := append_of_mem hstop
  rw [play_append]
  cases h : play b as with
  | none => rfl
  | some b' =>
    have hb' : b' i = .fresh := play_other h hfresh fun k hk => hes k (mem_append_left _ hk)
    simp [play_cons, step, hb']

/-! ### Blocks numbered without a gap -/

/-- Closed below `lo`, open with kind `k` from `lo` up to `hi`, unused above. -/
def layout (lo hi : ℤ) (k : κ) : Board κ := fun i =>
  if 0 ≤ i ∧ i < lo then .closed else if lo ≤ i ∧ i < hi then .opened k else .fresh

omit [DecidableEq κ] in
theorem layout_zero (k : κ) : layout 0 0 k = blank := by
  funext i
  unfold layout blank
  rw [if_neg (by omega), if_neg (by omega)]

omit [DecidableEq κ] in
theorem layout_kind (n : ℤ) (k k' : κ) : layout n n k = layout n n k' := by
  funext i
  unfold layout
  split_ifs with h₁ h₂
  · rfl
  · omega
  · rfl

omit [DecidableEq κ] in
theorem layout_not_open (n : ℤ) (k : κ) (i : ℤ) (k' : κ) : layout n n k i ≠ .opened k' := by
  unfold layout
  split_ifs with h₁ h₂
  · simp
  · omega
  · simp

variable {lo hi i : ℤ} {k : κ}

omit [DecidableEq κ] in
theorem layout_above (hhi : lo ≤ hi) (hi' : hi ≤ i) : layout lo hi k i = .fresh := by
  unfold layout
  rw [if_neg (by omega), if_neg (by omega)]

theorem step_start (hlo : 0 ≤ lo) (hhi : lo ≤ hi) :
    step (layout lo hi k) (.start hi k) = some (layout lo (hi + 1) k) := by
  have hfresh : layout lo hi k hi = .fresh := layout_above hhi le_rfl
  simp only [step, if_pos hfresh, Option.some.injEq]
  funext j
  by_cases hj : j = hi
  · subst hj
    unfold layout
    rw [update_self, if_neg (by omega), if_pos (by omega)]
  · rw [update_of_ne hj]
    unfold layout
    split_ifs <;> first | rfl | omega

theorem step_delta (h₁ : lo ≤ i) (h₂ : i < hi) : step (layout lo hi k) (.delta i k) = some (layout lo hi k) := by
  have hopen : layout lo hi k i = .opened k := by
    unfold layout
    rw [if_neg (by omega), if_pos ⟨h₁, h₂⟩]
  simp only [step, if_pos hopen]

theorem step_stop (hlo : 0 ≤ lo) (h : lo < hi) : step (layout lo hi k) (.stop lo) = some (layout (lo + 1) hi k) := by
  have hopen : layout lo hi k lo = .opened k := by
    unfold layout
    rw [if_neg (by omega), if_pos (by omega)]
  simp only [step, hopen, Option.some.injEq]
  funext j
  by_cases hj : j = lo
  · subst hj
    unfold layout
    rw [update_self, if_pos (by omega)]
  · rw [update_of_ne hj]
    unfold layout
    split_ifs <;> first | rfl | omega

def stops (lo : ℤ) (n : ℕ) : List (Event κ) := (List.range n).map fun (j : ℕ) => .stop (lo + j)

variable (n : ℕ)

omit [DecidableEq κ] in
theorem stops_succ : (stops lo (n + 1) : List (Event κ)) = .stop lo :: stops (lo + 1) n := by
  unfold stops
  rw [range_succ_eq_map, map_cons, map_map]
  refine cons_eq_cons.mpr ⟨by simp, map_congr_left fun j _ => ?_⟩
  rw [comp_apply, Event.stop.injEq]
  omega

theorem play_stops (hlo : 0 ≤ lo) : play (layout lo (lo + n) k) (stops lo n) = some (layout (lo + n) (lo + n) k) := by
  induction n generalizing lo with
  | zero => simp [stops]
  | succ n ih =>
    have hhi : lo + ((n + 1 : ℕ) : ℤ) = lo + 1 + n := by omega
    rw [stops_succ, play_cons, step_stop hlo (by omega), hhi]
    exact ih (by omega)

end play

end Blocks
