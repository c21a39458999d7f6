import Mathlib.Algebra.BigOperators.Group.List.Basic
import Mathlib.Algebra.Ring.Int.Defs
import Mathlib.Data.List.AList

/-!
# A limit per window, and totals over finite maps

A budget has a limit, a counter of what the current window has used, its number and, for the record, what every window
spent.  `reopen` starts a window with an empty counter, `adjust` books an amount (of either sign) on the current
window and clamps the counter at zero, `release` lowers what an earlier window spent and leaves the counter alone.
All three keep `Sound`: no window spends more than the limit.

`total w m` sums a weight over the values of a map.
-/

/-! ### Totals over a finite map -/

namespace Tally

open List

variable {κ ν : Type}

def total (w : ν → Int) (m : AList fun _ : κ => ν) : Int := (m.entries.map fun e => w e.2).sum

variable [DecidableEq κ] (w : ν → Int) (m : AList fun _ : κ => ν) (k : κ)

theorem total_erase : total w (m.erase k) = total w m - (m.lookup k).elim 0 w := by
  unfold total AList.lookup AList.erase
  simp only
  induction m.entries with
  | nil => rfl
  | cons e l ih =>
    obtain ⟨k', v⟩ := e
    by_cases hk : k = k'
    · subst hk
      have herase : List.kerase k ((⟨k, v⟩ : Σ _ : κ, ν) :: l) = l := kerase_cons_eq rfl
      rw [herase, dlookup_cons_eq, map_cons, sum_cons, Option.elim_some, add_sub_cancel_left]
    · rw [kerase_cons_ne hk, dlookup_cons_ne _ _ hk, map_cons, sum_cons, ih, map_cons, sum_cons]
      omega

/-- **Replacement**: the new value comes in, the old one goes out. -/
theorem total_insert (v : ν) : total w (m.insert k v) = total w m - (m.lookup k).elim 0 w + w v := by
  rw [← total_erase]
  unfold total
  rw [AList.entries_insert, map_cons, sum_cons, add_comm]
  rfl

end Tally

/-! ### Budgets -/

/-- A limit (`0`: none), the counter and number of the current window, and the spending on record. -/
@[ext]
structure Budget where
  (limit used : Int)
  window : ℕ
  spent : ℕ → Int

namespace Budget

open List

variable (b : Budget)

def reopen : Budget := { b with used := 0, window := b.window + 1 }

def adjust (x : Int) : Budget :=
  { b with
    used := max 0 (b.used + x)
    spent := fun k => b.spent k + if k = b.window then x else 0 }

def release (j : ℕ) (x : Int) : Budget :=
  { b with spent := fun k => b.spent k + if k = j then x else 0 }

/-- The counter covers the spending of the current window, later windows have spent nothing, and no
window has spent more than the limit. -/
structure Sound : Prop where
  nonneg : 0 ≤ b.used
  covered : b.spent b.window ≤ b.used
  future : ∀ k, b.window < k → b.spent k ≤ 0
  within : 0 < b.limit → ∀ k, b.spent k ≤ b.limit

variable {b : Budget}

theorem Sound.reopen (h : b.Sound) : b.reopen.Sound := by
  refine ⟨Int.le_refl 0, h.future _ (Nat.lt_succ_self _), fun k hk => ?_, h.within⟩
  exact h.future k ((Nat.lt_succ_self _).trans hk)

theorem Sound.adjust {x : Int} (h : b.Sound) (hfit : 0 < b.limit → max 0 (b.used + x) ≤ b.limit) :
    (b.adjust x).Sound := by
  have hcov := h.covered
  refine ⟨Int.le_max_left 0 (b.used + x), ?_, fun k hk => ?_, fun hpos k => ?_⟩
  · show b.spent b.window + (if b.window = b.window then x else 0) ≤ max 0 (b.used + x)
    rw [if_pos rfl]
    omega
  · show b.spent k + (if k = b.window then x else 0) ≤ 0
    have hne : k ≠ b.window := Nat.ne_of_gt hk
    rw [if_neg hne, add_zero]
    exact h.future k hk
  · show b.spent k + (if k = b.window then x else 0) ≤ b.limit
    by_cases hk : k = b.window
    · have hle : max 0 (b.used + x) ≤ b.limit := hfit hpos
      rw [if_pos hk, hk]
      omega
    · rw [if_neg hk, add_zero]
      exact h.within hpos k

theorem Sound.release {j : ℕ} {x : Int} (h : b.Sound) (hx : x ≤ 0) : (b.release j x).Sound := by
  have hle : ∀ k, (b.release j x).spent k ≤ b.spent k := by
    intro k
    show b.spent k + (if k = j then x else 0) ≤ b.spent k
    split <;> omega
  refine ⟨h.nonneg, Int.le_trans (hle _) h.covered, fun k hk => ?_, fun hpos k => ?_⟩
  · exact Int.le_trans (hle k) (h.future k hk)
  · exact Int.le_trans (hle k) (h.within hpos k)

end Budget
