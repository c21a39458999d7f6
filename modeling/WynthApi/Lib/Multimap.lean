import Mathlib.Data.List.AList

/-!
# A map from keys to lists of values, filled one value at a time

`push` is the idiom `m[k] = append(m[k], v)`.  `pairs` lists the map's contents key by key; the values
it has for one key are those of `get`, in their order.
-/

abbrev Multimap (κ ν : Type) := AList fun _ : κ => List ν

namespace Multimap

open List

variable {κ ν : Type} [DecidableEq κ] (m : Multimap κ ν) (k : κ)

def get : List ν := (m.lookup k).getD []

def push (v : ν) : Multimap κ ν := m.insert k (m.get k ++ [v])

def pairs : List (κ × ν) := m.entries.flatMap fun e => e.2.map fun v => (e.1, v)

@[simp] theorem get_empty : get (∅ : Multimap κ ν) k = [] := rfl

theorem get_push (k k' : κ) (v : ν) : (m.push k v).get k' = if k' = k then m.get k ++ [v] else m.get k' := by
  unfold push get
  by_cases h : k' = k
  · subst h
    rw [if_pos rfl, AList.lookup_insert, Option.getD_some]
  · rw [if_neg h, AList.lookup_insert_ne h]

variable {v : ν} {m : Multimap κ ν}

theorem mem_get_push {k k' : κ} {v' : ν} : v' ∈ (m.push k v).get k' ↔ v' ∈ m.get k' ∨ (k' = k ∧ v' = v) := by
  rw [get_push]
  by_cases h : k' = k
  · subst h
    simp
  · simp [h]

theorem mem_keys_of_mem_get {k : κ} (h : v ∈ m.get k) : k ∈ m.keys := by
  unfold get at h
  rw [← AList.mem_keys, ← AList.lookup_isSome]
  cases hlookup : m.lookup k with
  | none =>
    rw [hlookup] at h
    cases h
  | some vs => rfl

/-- A list of entries with different keys holds for one key what the first entry of that key holds. -/
theorem filter_flatMap_entries (l : List (Sigma fun _ : κ => List ν)) (hl : l.NodupKeys) (k : κ) :
    ((l.flatMap fun e => e.2.map fun v => (e.1, v)).filter fun p => p.1 = k).map Prod.snd = (l.dlookup k).getD [] := by
  induction l with
  | nil => rfl
  | cons e l ih =>
    obtain ⟨k', vs⟩ := e
    rw [nodupKeys_cons] at hl
    rw [flatMap_cons, filter_append, map_append, ih hl.2]
    by_cases h : k' = k
    · subst h
      rw [dlookup_cons_eq, dlookup_eq_none.mpr hl.1, Option.getD_some, Option.getD_none, append_nil]
      simp [filter_map, Function.comp_def]
    · rw [dlookup_cons_ne _ _ (Ne.symm h)]
      simp [filter_map, Function.comp_def, h]

theorem filter_pairs : (m.pairs.filter fun p => p.1 = k).map Prod.snd = m.get k :=
  filter_flatMap_entries m.entries m.nodupKeys k

theorem mem_pairs {k : κ} : (k, v) ∈ m.pairs ↔ v ∈ m.get k := by
  rw [← filter_pairs]
  constructor
  · intro h
    exact mem_map.mpr ⟨(k, v), mem_filter.mpr ⟨h, by simp⟩, rfl⟩
  · intro h
    obtain ⟨⟨k', v'⟩, hp, rfl⟩ := mem_map.mp h
    obtain ⟨hmem, hk⟩ := mem_filter.mp hp
    have hk' : k' = k := by simpa using hk
    rw [← hk']
    exact hmem

end Multimap
