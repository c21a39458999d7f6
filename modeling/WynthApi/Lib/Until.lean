import Mathlib.Data.Nat.Notation
import Mathlib.Tactic.SplitIfs

/-!
# A loop that steps until it may stop

`untilStop stop next fuel s` tests `stop` at most `fuel` times.
-/

namespace Until

variable {σ τ : Type}

def untilStop (stop : σ → Bool) (next : σ → σ) : ℕ → σ → Option σ
  | 0, _ => none
  | fuel + 1, s => if stop s then some s else untilStop stop next fuel (next s)

variable {stop : σ → Bool} {next : σ → σ} {fuel : ℕ} {s s' : σ}

theorem untilStop_inv {I : σ → Prop} (hstep : ∀ s, I s → I (next s)) (hs : I s)
    (h : untilStop stop next fuel s = some s') : I s' ∧ stop s' = true := by
  induction fuel generalizing s with
  | zero => exact absurd h nofun
  | succ fuel ih =>
    rw [untilStop] at h
    split_ifs at h with hstop
    · obtain rfl := Option.some.inj h
      exact ⟨hs, hstop⟩
    · exact ih (hstep s hs) h

/-- **Termination**: with a measure that falls below the fuel the loop stops. -/
theorem untilStop_some {μ : σ → ℕ} (hfall : ∀ s, stop s = false → μ (next s) < μ s) (hfuel : μ s < fuel) :
    ∃ s', untilStop stop next fuel s = some s' := by
  induction fuel generalizing s with
  | zero => exact absurd hfuel (Nat.not_lt_zero _)
  | succ fuel ih =>
    rw [untilStop]
    split_ifs with hstop
    · exact ⟨s, rfl⟩
    · have hlt := hfall s (Bool.eq_false_iff.mpr hstop)
      exact ih (by omega)

/-- **Two loops**: they stop together, in related states. -/
theorem untilStop_rel {stop' : τ → Bool} {next' : τ → τ} {R : σ → τ → Prop} {t : τ}
    (hstop : ∀ s t, R s t → stop s = stop' t) (hnext : ∀ s t, R s t → R (next s) (next' t)) (hst : R s t)
    (h : untilStop stop next fuel s = some s') : ∃ t', untilStop stop' next' fuel t = some t' ∧ R s' t' := by
  induction fuel generalizing s t with
  | zero => exact absurd h nofun
  | succ fuel ih =>
    rw [untilStop] at h ⊢
    rw [← hstop s t hst]
    split_ifs at h ⊢ with hend
    · obtain rfl := Option.some.inj h
      exact ⟨t, rfl, hst⟩
    · exact ih (hnext s t hst) h

end Until
