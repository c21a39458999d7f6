import Mathlib.Data.List.Pairwise
import Mathlib.Data.List.Sort

/-!
# A table as a list of rows

`UPDATE … WHERE`, `DELETE … WHERE` and `SELECT … ORDER BY … LIMIT 1`, with the membership facts that
proofs about tables use.
-/

namespace Table

open List

variable {ρ : Type} (p : ρ → Bool)

def updateWhere (f : ρ → ρ) (rows : List ρ) : List ρ :=
  rows.map fun r => if p r = true then f r else r

def deleteWhere (rows : List ρ) : List ρ := rows.filter fun r => !p r

def selectFirst (le : ρ → ρ → Prop) [DecidableRel le] (rows : List ρ) : Option ρ :=
  ((rows.filter p).insertionSort le).head?

variable {rows : List ρ} {p : ρ → Bool} {r : ρ}

theorem mem_updateWhere {f : ρ → ρ} : r ∈ updateWhere p f rows ↔ ∃ r₀ ∈ rows, (if p r₀ = true then f r₀ else r₀) = r :=
  mem_map

theorem mem_deleteWhere : r ∈ deleteWhere p rows ↔ r ∈ rows ∧ p r = false := by simp [deleteWhere]

theorem updateWhere_of_none {f : ρ → ρ} (h : ∀ r ∈ rows, p r = false) : updateWhere p f rows = rows := by
  rw [updateWhere]
  refine (map_congr_left fun r hr => ?_).trans (map_id rows)
  rw [h r hr]
  rfl

theorem deleteWhere_of_none (h : ∀ r ∈ rows, p r = false) : deleteWhere p rows = rows :=
  filter_eq_self.mpr fun r hr => by rw [h r hr]; rfl

/-! ### Keys and unique indexes -/

section Keys

variable {κ : Type} {p : ρ → Bool} {f : ρ → ρ} {rows : List ρ} {r : ρ}

theorem map_updateWhere {key : ρ → κ} (hf : ∀ r, key (f r) = key r) :
    (updateWhere p f rows).map key = rows.map key := by
  rw [updateWhere, map_map]
  refine map_congr_left fun r _ => ?_
  show key (if p r = true then f r else r) = key r
  split_ifs
  · exact hf r
  · rfl

variable {key : ρ → Option κ}

theorem filterMap_updateWhere (hf : ∀ r, key (f r) = key r ∨ key (f r) = none) :
    ((updateWhere p f rows).filterMap key).Sublist (rows.filterMap key) := by
  induction rows with
  | nil => exact .slnil
  | cons r rows ih =>
    have hcons : updateWhere p f (r :: rows) = (if p r = true then f r else r) :: updateWhere p f rows := rfl
    rw [hcons, filterMap_cons, filterMap_cons]
    have hr : key (if p r = true then f r else r) = key r ∨ key (if p r = true then f r else r) = none := by
      split_ifs
      · exact hf r
      · exact .inl rfl
    rcases hr with hr | hr <;> rw [hr]
    · cases key r with
      | none => exact ih
      | some k => exact ih.cons_cons k
    · cases key r with
      | none => exact ih
      | some k => exact ih.cons k

theorem nodup_map_append {key : ρ → κ} (h : (rows.map key).Nodup) (hr : ∀ r' ∈ rows, key r' ≠ key r) :
    ((rows ++ [r]).map key).Nodup := by
  rw [map_append, nodup_append]
  refine ⟨h, nodup_singleton _, ?_⟩
  rintro k hk k' hk' rfl
  obtain ⟨r', hr', rfl⟩ := mem_map.mp hk
  exact hr r' hr' (mem_singleton.mp hk')

theorem nodup_filterMap_append (h : (rows.filterMap key).Nodup)
    (hr : ∀ r' ∈ rows, key r' = none ∨ key r' ≠ key r) : ((rows ++ [r]).filterMap key).Nodup := by
  rw [filterMap_append, nodup_append]
  refine ⟨h, ?_, ?_⟩
  · cases hkey : key r with
    | none | some => simp [hkey]
  · rintro k hk k' hk' rfl
    obtain ⟨r', hr', hkey'⟩ := mem_filterMap.mp hk
    have hkey : key r = some k := by simpa using hk'
    rcases hr r' hr' with hnone | hne
    · rw [hnone] at hkey'
      cases hkey'
    · exact hne (hkey'.trans hkey.symm)

/-- A unique index on a nullable key: two rows with one key are the same. -/
theorem eq_of_nodup_filterMap (h : (rows.filterMap key).Nodup) {r' : ρ} (hr : r ∈ rows) (hr' : r' ∈ rows)
    {k : κ} (hk : key r = some k) (hk' : key r' = some k) : r = r' := by
  have hpair := pairwise_filterMap.mp h
  by_contra hne
  have hsymm : Std.Symm fun a a' => ∀ b, key a = some b → ∀ b', key a' = some b' → b ≠ b' :=
    ⟨fun a a' hab b hb b' hb' heq => hab b' hb' b hb heq.symm⟩
  exact hpair.forall hr hr' hne k hk k hk' rfl

end Keys

/-! ### Selection -/

variable {p : ρ → Bool} {le : ρ → ρ → Prop} [DecidableRel le] {rows : List ρ}

theorem selectFirst_mem (h : selectFirst p le rows = some r) : r ∈ rows ∧ p r = true := by
  have hmem : r ∈ (rows.filter p).insertionSort le := mem_of_mem_head? h
  rw [mem_insertionSort, mem_filter] at hmem
  exact hmem

theorem selectFirst_eq_none : selectFirst p le rows = none ↔ ∀ r ∈ rows, p r = false := by
  unfold selectFirst
  rw [head?_eq_none_iff]
  constructor
  · intro h r hr
    by_contra hp
    have hmem : r ∈ (rows.filter p).insertionSort le := by
      rw [mem_insertionSort, mem_filter]
      exact ⟨hr, by simpa using hp⟩
    rw [h] at hmem
    cases hmem
  · intro h
    have hnil : rows.filter p = [] := filter_eq_nil_iff.mpr fun r hr => by simp [h r hr]
    rw [hnil]
    rfl

theorem selectFirst_le [Std.Total le] [IsTrans ρ le] (h : selectFirst p le rows = some r) {r' : ρ}
    (hr' : r' ∈ rows) (hp : p r' = true) : le r r' := by
  have hsorted := pairwise_insertionSort le (rows.filter p)
  have hmem : r' ∈ (rows.filter p).insertionSort le := by
    rw [mem_insertionSort, mem_filter]
    exact ⟨hr', hp⟩
  unfold selectFirst at h
  cases hl : (rows.filter p).insertionSort le with
  | nil =>
    rw [hl] at hmem
    cases hmem
  | cons x xs =>
    rw [hl] at h hmem hsorted
    obtain rfl : x = r := Option.some.inj h
    rcases mem_cons.mp hmem with rfl | hmem
    · rcases total_of le r' r' with h | h <;> exact h
    · exact rel_of_pairwise_cons hsorted hmem

end Table
