import Mathlib.Data.Nat.Notation
import Mathlib.Logic.Function.Basic

/-!
# Threads over a shared state, by rely and guarantee

`Sys σ π` is a shared state and one local state per thread.  A proof gives an invariant of the shared state,
what every thread knows (`Ok`) and what a thread's move guarantees to the others (`G`).  If no thread's
knowledge is lost by what another guarantees, it is enough to look at the thread that moves (`Holds.put`).
-/

namespace Threads

structure Sys (σ π : Type) where
  shared : σ
  thread : ℕ → π

variable {σ π : Type}

def Sys.put (s : Sys σ π) (i : ℕ) (sh : σ) (p : π) : Sys σ π := ⟨sh, Function.update s.thread i p⟩

@[simp] theorem Sys.put_shared (s : Sys σ π) (i : ℕ) (sh : σ) (p : π) : (s.put i sh p).shared = sh :=
  rfl

@[simp] theorem Sys.put_thread_self (s : Sys σ π) (i : ℕ) (sh : σ) (p : π) : (s.put i sh p).thread i = p := by
  simp [Sys.put]

theorem Sys.put_thread_ne (s : Sys σ π) {i j : ℕ} (h : j ≠ i) (sh : σ) (p : π) :
    (s.put i sh p).thread j = s.thread j := by
  simp [Sys.put, h]

structure Holds (Inv : σ → Prop) (Ok : σ → ℕ → π → Prop) (s : Sys σ π) : Prop where
  shared : Inv s.shared
  thread : ∀ i, Ok s.shared i (s.thread i)

/-- No thread's knowledge is lost by what another thread guarantees. -/
def Stable (Ok : σ → ℕ → π → Prop) (G : ℕ → σ → σ → Prop) : Prop :=
  ∀ i j sh sh' p, i ≠ j → G j sh sh' → Ok sh i p → Ok sh' i p

variable {Inv : σ → Prop} {Ok : σ → ℕ → π → Prop} {s : Sys σ π}

/-- **Rely–guarantee**: a move that keeps the invariant, leaves its thread informed and guarantees what
the others rely on keeps everything. -/
theorem Holds.put {G : ℕ → σ → σ → Prop} (stable : Stable Ok G) (h : Holds Inv Ok s) {j : ℕ} {sh' : σ} {p : π}
    (hinv : Inv sh') (hok : Ok sh' j p) (hG : G j s.shared sh') : Holds Inv Ok (s.put j sh' p) := by
  refine ⟨hinv, fun i => ?_⟩
  by_cases hi : i = j
  · subst hi
    rw [Sys.put_thread_self]
    exact hok
  · rw [Sys.put_thread_ne s hi]
    exact stable i j _ _ _ hi hG (h.thread i)

theorem Holds.pass (h : Holds Inv Ok s) {sh' : σ} (hinv : Inv sh')
    (stable : ∀ {i p}, Ok s.shared i p → Ok sh' i p) : Holds Inv Ok ⟨sh', s.thread⟩ :=
  ⟨hinv, fun i => stable (h.thread i)⟩

end Threads
