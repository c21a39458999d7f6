import Mathlib.Data.Finset.Card

/-!
# Emptying pools in order of rank

`Picks` chooses an unused element of the first pool that has one, of the highest rank there; a `Run` picks until
nothing is left.  It uses nothing twice (`Run.nodup`), leaves nothing out (`Run.covers`), empties the first pool in
falling order of rank before it turns to the others (`Run.split`), and cannot be longer than the elements that were
left (`left_lt`).
-/

namespace Drain

open List

variable {α : Type} [DecidableEq α] (rank : α → Int)

/-- `c` is unused, in the first pool that has an unused element, and nothing unused there ranks
higher. -/
def Picks (used : List α) : List (List α) → α → Prop
  | [], _ => False
  | pool :: pools, c =>
    if ∃ d ∈ pool, d ∉ used then c ∈ pool ∧ c ∉ used ∧ ∀ d ∈ pool, d ∉ used → rank d ≤ rank c
    else Picks used pools c

instance Picks.decidable (used : List α) : (pools : List (List α)) → (c : α) →
    Decidable (Picks rank used pools c)
  | [], _ => inferInstanceAs (Decidable False)
  | _ :: pools, c =>
    have := Picks.decidable used pools c
    inferInstanceAs (Decidable (@ite Prop _ _ (_ ∧ _) _))

inductive Run (pools : List (List α)) : List α → List α → Prop
  | done {used : List α} (h : ∀ pool ∈ pools, ∀ d ∈ pool, d ∈ used) : Run pools used []
  | pick {used cs : List α} {c : α} (h : Picks rank used pools c)
      (rest : Run pools (used ++ [c]) cs) : Run pools used (c :: cs)

variable {rank} {pools : List (List α)} {used cs : List α} {c : α}

theorem Picks.mem (h : Picks rank used pools c) : c ∉ used ∧ ∃ pool ∈ pools, c ∈ pool := by
  induction pools with
  | nil => exact h.elim
  | cons pool pools ih =>
    unfold Picks at h
    split_ifs at h with hleft
    · exact ⟨h.2.1, pool, mem_cons_self, h.1⟩
    · obtain ⟨hnew, q, hq, hc⟩ := ih h
      exact ⟨hnew, q, mem_cons_of_mem _ hq, hc⟩

/-! ### Nothing twice, nothing left out -/

theorem Run.nodup (h : Run rank pools used cs) : cs.Nodup ∧ ∀ c ∈ cs, c ∉ used := by
  induction h with
  | done h => exact ⟨nodup_nil, by simp⟩
  | @pick used cs c hpick rest ih =>
    obtain ⟨hnodup, hnew⟩ := ih
    refine ⟨nodup_cons.mpr ⟨fun hc => hnew c hc (by simp), hnodup⟩, fun d hd => ?_⟩
    rcases mem_cons.mp hd with rfl | hd
    · exact hpick.mem.1
    · exact fun hused => hnew d hd (mem_append_left _ hused)

theorem Run.covers (h : Run rank pools used cs) : ∀ pool ∈ pools, ∀ d ∈ pool, d ∈ used ∨ d ∈ cs := by
  induction h with
  | done h => exact fun pool hpool d hd => .inl (h pool hpool d hd)
  | @pick used cs c hpick rest ih =>
    intro pool hpool d hd
    rcases ih pool hpool d hd with hused | hlater
    · rcases mem_append.mp hused with hused | hc
      · exact .inl hused
      · rw [mem_singleton.mp hc]
        exact .inr mem_cons_self
    · exact .inr (mem_cons_of_mem _ hlater)

theorem Run.mem (h : Run rank pools used cs) : ∀ c ∈ cs, ∃ pool ∈ pools, c ∈ pool := by
  induction h with
  | done h => simp
  | pick hpick rest ih =>
    intro d hd
    rcases mem_cons.mp hd with rfl | hd
    · exact hpick.mem.2
    · exact ih d hd

/-! ### Pool by pool, in falling order -/

variable {pool : List α}

theorem Run.tail (h : Run rank (pool :: pools) used cs) : (∀ d ∈ pool, d ∈ used) → Run rank pools used cs := by
  induction h with
  | done h => exact fun _ => .done fun q hq => h q (mem_cons_of_mem _ hq)
  | pick hpick rest ih =>
    intro hused
    unfold Picks at hpick
    rw [if_neg (by
      rintro ⟨d, hd, hnew⟩
      exact hnew (hused d hd))] at hpick
    exact .pick hpick (ih fun d hd => mem_append_left _ (hused d hd))

/-- **Order**: a run first empties the first pool, in falling order of rank, and then runs through
the other pools. -/
theorem Run.split (h : Run rank (pool :: pools) used cs) :
    ∃ es rest, cs = es ++ rest ∧ (∀ e ∈ es, e ∈ pool) ∧ es.Pairwise (fun a b => rank b ≤ rank a) ∧
      (∀ d ∈ pool, d ∈ used ++ es) ∧ Run rank pools (used ++ es) rest := by
  induction h with
  | @done used h =>
    refine ⟨[], [], rfl, by simp, List.Pairwise.nil, fun d hd => ?_, ?_⟩
    · simpa using h pool mem_cons_self d hd
    · exact .done fun q hq d hd => by simpa using h q (mem_cons_of_mem _ hq) d hd
  | @pick used cs c hpick rest ih =>
    by_cases hleft : ∃ d ∈ pool, d ∉ used
    · obtain ⟨es, rest', rfl, hes, hsorted, hall, hrun⟩ := ih
      have hc : c ∈ pool ∧ c ∉ used ∧ ∀ d ∈ pool, d ∉ used → rank d ≤ rank c := by
        unfold Picks at hpick
        rwa [if_pos hleft] at hpick
      -- what is picked later was unused when `c` was picked
      have hnew : ∀ e ∈ es, e ∉ used := fun e he hused =>
        rest.nodup.2 e (mem_append_left _ he) (mem_append_left _ hused)
      refine ⟨c :: es, rest', rfl, fun e he => ?_, ?_, fun d hd => ?_, ?_⟩
      · rcases mem_cons.mp he with rfl | he
        · exact hc.1
        · exact hes e he
      · exact pairwise_cons.mpr ⟨fun e he => hc.2.2 e (hes e he) (hnew e he), hsorted⟩
      · simpa using hall d hd
      · simpa using hrun
    · have hused : ∀ d ∈ pool, d ∈ used := fun d hd => by
        by_contra hnew
        exact hleft ⟨d, hd, hnew⟩
      refine ⟨[], c :: cs, rfl, by simp, List.Pairwise.nil, by simpa using hused, ?_⟩
      rw [append_nil]
      exact (Run.pick hpick rest).tail hused

/-! ### What is left -/

def left (pools : List (List α)) (used : List α) : Finset α := pools.flatten.toFinset \ used.toFinset

theorem left_lt (h : Picks rank used pools c) : (left pools (used ++ [c])).card < (left pools used).card := by
  obtain ⟨hnew, pool, hpool, hc⟩ := h.mem
  refine Finset.card_lt_card ⟨fun d hd => ?_, fun hsub => ?_⟩
  · simp only [left, Finset.mem_sdiff, mem_toFinset, mem_append, not_or] at hd ⊢
    exact ⟨hd.1, hd.2.1⟩
  · have hmem : c ∈ left pools used := by
      simp only [left, Finset.mem_sdiff, mem_toFinset]
      exact ⟨mem_flatten.mpr ⟨pool, hpool, hc⟩, hnew⟩
    have hnot := hsub hmem
    simp [left] at hnot

end Drain
