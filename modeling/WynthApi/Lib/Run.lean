import Mathlib.Algebra.BigOperators.Group.List.Basic
import Mathlib.Data.List.Basic

/-!
# Runs of a step function, with a condition on every step

A system is a step function `step : σ → α → σ`; an action carries the scheduling choice and every answer the
environment gives, so one list of actions is one run.  `Along step P s as` says that each action of `as` is
taken in a state where `P` allows it.  The rules here are the only inductions over runs in the development.
-/

namespace StepSys

open List

variable {σ α : Type*} (step : σ → α → σ)

def run (s : σ) (as : List α) : σ := as.foldl step s

def Along (P : σ → α → Prop) : σ → List α → Prop
  | _, [] => True
  | s, a :: as => P s a ∧ Along P (step s a) as

instance decidableAlong (P : σ → α → Prop) [∀ s a, Decidable (P s a)] :
    ∀ (s : σ) (as : List α), Decidable (Along step P s as)
  | _, [] => isTrue trivial
  | s, a :: as =>
    have := decidableAlong P (step s a) as
    inferInstanceAs (Decidable (P s a ∧ Along step P (step s a) as))

variable {step}

@[simp] theorem run_nil (s : σ) : run step s [] = s := rfl

@[simp] theorem run_cons (s : σ) (a : α) (as : List α) : run step s (a :: as) = run step (step s a) as := rfl

theorem run_append (s : σ) (as bs : List α) : run step s (as ++ bs) = run step (run step s as) bs := by
  simp [run, foldl_append]

variable {I : σ → Prop} {P : σ → α → Prop} {as : List α} {s : σ}

theorem along_of_forall {P : α → Prop} (h : ∀ a ∈ as, P a) (s : σ) : Along step (fun _ a => P a) s as := by
  induction as generalizing s with
  | nil => trivial
  | cons a as ih =>
    refine ⟨h a mem_cons_self, ih (fun b hb => h b (mem_cons_of_mem a hb)) (step s a)⟩

theorem Along.and {P Q : σ → α → Prop} (hP : Along step P s as) (hQ : Along step Q s as) :
    Along step (fun s a => P s a ∧ Q s a) s as := by
  induction as generalizing s with
  | nil => trivial
  | cons a as ih => exact ⟨⟨hP.1, hQ.1⟩, ih hP.2 hQ.2⟩

theorem along_trace {P Q : List α → α → Prop} {pre : List α}
    (hP : Along (fun pre a => pre ++ [a]) P pre as) (hQ : ∀ l a r, as = l ++ a :: r → Q (pre ++ l) a) :
    Along (fun pre a => pre ++ [a]) (fun pre a => P pre a ∧ Q pre a) pre as := by
  induction as generalizing pre with
  | nil => trivial
  | cons a as ih =>
    refine ⟨⟨hP.1, by simpa using hQ [] a as rfl⟩, ih hP.2 fun l c r hsplit => ?_⟩
    have h := hQ (a :: l) c r (by rw [hsplit]; rfl)
    simpa using h

/-- **Invariant rule**: what one allowed step keeps, every allowed run keeps. -/
theorem run_inv (hstep : ∀ s a, I s → P s a → I (step s a)) (hI : I s) (h : Along step P s as) : I (run step s as) := by
  induction as generalizing s with
  | nil => exact hI
  | cons a as ih =>
    rw [run_cons]
    exact ih (hstep s a hI h.1) h.2

variable {R : σ → σ → Prop}

/-- **Relational rule**: a transitive relation that every allowed step from an invariant state
satisfies relates the start of a run to its end. -/
theorem run_rel (hrefl : ∀ s, R s s) (htrans : ∀ s t u, R s t → R t u → R s u)
    (hstep : ∀ s a, I s → P s a → I (step s a) ∧ R s (step s a)) (hI : I s) (h : Along step P s as) :
    R s (run step s as) := by
  induction as generalizing s with
  | nil => exact hrefl s
  | cons a as ih =>
    obtain ⟨hI', hR⟩ := hstep s a hI h.1
    rw [run_cons]
    exact htrans _ _ _ hR (ih hI' h.2)

/-- **Accounting rule**: if every allowed step from an invariant state changes `m` by what the action is
charged with, a run changes `m` by the sum of the charges. -/
theorem run_sum {M : Type*} [AddCommMonoid M] {m : σ → M} {d : α → M}
    (hstep : ∀ s a, I s → P s a → I (step s a) ∧ m (step s a) = m s + d a) (hI : I s)
    (h : Along step P s as) : I (run step s as) ∧ m (run step s as) = m s + (as.map d).sum := by
  induction as generalizing s with
  | nil => exact ⟨hI, by simp⟩
  | cons a as ih =>
    obtain ⟨hI', hm⟩ := hstep s a hI h.1
    obtain ⟨hI'', hm'⟩ := ih hI' h.2
    refine ⟨hI'', ?_⟩
    rw [run_cons, hm', hm, map_cons, sum_cons, add_assoc]

/-- **Passage rule**: the state right after any action of an allowed run comes from an invariant state and
is related to the end of the run. -/
theorem run_through (hrefl : ∀ s, R s s) (htrans : ∀ s t u, R s t → R t u → R s u)
    (hstep : ∀ s a, I s → P s a → I (step s a) ∧ R s (step s a)) (hI : I s) (h : Along step P s as) :
    ∀ a ∈ as, ∃ s', I s' ∧ P s' a ∧ R (step s' a) (run step s as) := by
  induction as generalizing s with
  | nil =>
    intro a ha
    cases ha
  | cons b as ih =>
    intro a ha
    obtain ⟨hI', -⟩ := hstep s b hI h.1
    rw [run_cons]
    rcases mem_cons.mp ha with rfl | ha
    · exact ⟨s, hI, h.1, run_rel hrefl htrans hstep hI' h.2⟩
    · exact ih hI' h.2 a ha

/-- **Progress rule**: where some step with `P` lowers the rank until a goal is met, it can be met by such steps. -/
theorem exists_run {G : σ → Prop} {P : α → Prop} (rank : σ → ℕ)
    (hstep : ∀ s, I s → ¬ G s → ∃ a, P a ∧ I (step s a) ∧ rank (step s a) < rank s) (hI : I s) :
    ∃ as, (∀ a ∈ as, P a) ∧ G (run step s as) := by
  induction hn : rank s using Nat.strongRecOn generalizing s with
  | _ n ih =>
    by_cases hG : G s
    · exact ⟨[], by simp, hG⟩
    · obtain ⟨a, ha, hI', hlt⟩ := hstep s hI hG
      obtain ⟨as, has, hgoal⟩ := ih _ (hn ▸ hlt) hI' rfl
      exact ⟨a :: as, List.forall_mem_cons.mpr ⟨ha, has⟩, hgoal⟩

end StepSys
