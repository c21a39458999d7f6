import Mathlib.Data.List.FinRange
import WynthApi.Priority.Outcome
import WynthApi.Priority.Rename

/-!
# The order of the inputs does not matter

Let `φ` rename the channels `idx`, one to one, to the channels `idx'` in some order.  The price of a cohort is made of
sums and bounds of its members, and its list in the order of the passes is the renamed one, for the ids decide
between channels of one rate.  So both sides have the same cells after dominance, whatever order the ranges over the
cohorts have, and hold back and release the same channels.
-/

namespace WynthApi.Priority

open Until Fold List

/-! ### Prices -/

theorem lowest_eq {rates : List ℚ} {a b : ℚ} (ha : a ∈ rates) (hb : b ∈ rates) : lowest a rates = lowest b rates :=
  @foldl_max_start ℚᵒᵈ _ rates a b ha hb

theorem highest_eq {rates : List ℚ} {a b : ℚ} (ha : a ∈ rates) (hb : b ∈ rates) :
    highest a rates = highest b rates := foldl_max_start ha hb

variable {rates rates' : List ℚ}

theorem lowest_perm (h : rates.Perm rates') (first : ℚ) : lowest first rates = lowest first rates' :=
  h.foldl_op_eq

theorem highest_perm (h : rates.Perm rates') (first : ℚ) : highest first rates = highest first rates' :=
  h.foldl_op_eq

theorem sort_perm (h : rates.Perm rates') : rates.insertionSort (· ≤ ·) = rates'.insertionSort (· ≤ ·) := by
  refine List.Perm.eq_of_pairwise' (pairwise_insertionSort _ _) (pairwise_insertionSort _ _) ?_
  exact (perm_insertionSort _ _).trans (h.trans (perm_insertionSort _ _).symm)

section

variable {ι κ : Type} {inputs : κ → AutoPriorityScoreInput} {φ : ι → κ}

theorem cohortPrice_perm {indexes : List ι} {indexes' : List κ} (h : indexes'.Perm (indexes.map φ))
    {first first' : ℚ} (hfirst : first ∈ indexes.map (rate (inputs ∘ φ)))
    (hfirst' : first' ∈ indexes'.map (rate inputs)) :
    cohortPrice inputs first' indexes' = cohortPrice (inputs ∘ φ) first indexes := by
  have hmap : ∀ g : AutoPriorityScoreInput → ℚ,
      (indexes'.map fun i => g (inputs i)).Perm (indexes.map fun i => g ((inputs ∘ φ) i)) := by
    intro g
    have hperm := h.map fun i => g (inputs i)
    rw [map_map] at hperm
    exact hperm
  have hrates : (indexes'.map (rate inputs)).Perm (indexes.map (rate (inputs ∘ φ))) :=
    hmap AutoPriorityScoreInput.effectiveRateMultiplier
  have hmin : lowest first' (indexes'.map (rate inputs)) = lowest first (indexes.map (rate (inputs ∘ φ))) := by
    rw [lowest_perm hrates]
    exact lowest_eq (hrates.mem_iff.mp hfirst') hfirst
  have hmax : highest first' (indexes'.map (rate inputs)) = highest first (indexes.map (rate (inputs ∘ φ))) := by
    rw [highest_perm hrates]
    exact highest_eq (hrates.mem_iff.mp hfirst') hfirst
  have hfloor := fun a => lowest_perm
    ((hmap AutoPriorityScoreInput.cohortCostFloor).filter isValidAutoPriorityMultiplier) a
  have hceil := fun a => highest_perm
    ((hmap AutoPriorityScoreInput.cohortCostCeil).filter isValidAutoPriorityMultiplier) a
  have hsort := fun a b => sort_perm ((List.Perm.append_right a hrates).append_right b)
  have hlen : indexes'.length = indexes.length := by rw [h.length_eq, length_map]
  simp only [cohortPrice, hmin, hmax, hfloor, hceil, hlen, hsort]

variable {idx : List ι} {idx' : List κ}

theorem members_perm (h : idx'.Perm (idx.map φ)) (key : String) :
    (members inputs idx' key).Perm ((members (inputs ∘ φ) idx key).map φ) := by
  have hperm := h.filter fun i => decide (isValidAutoPriorityMultiplier (rate inputs i) ∧ cohortOf inputs i = key)
  rw [filter_map] at hperm
  exact hperm

theorem priceOf_perm (h : idx'.Perm (idx.map φ)) (key : String) :
    priceOf inputs idx' key = priceOf (inputs ∘ φ) idx key := by
  have hperm : (members inputs idx' key).Perm ((members (inputs ∘ φ) idx key).map φ) := members_perm h key
  rw [priceOf, priceOf]
  cases hmembers : members (inputs ∘ φ) idx key with
  | nil =>
    rw [hmembers, map_nil, perm_nil] at hperm
    rw [hperm]
  | cons i indexes =>
    rw [hmembers] at hperm
    cases hmembers' : members inputs idx' key with rw [hmembers'] at hperm
    | nil => exact absurd hperm.symm (not_perm_cons_nil)
    | cons i' indexes' => exact cohortPrice_perm hperm mem_cons_self mem_cons_self

theorem members_cases (inputs : ι → AutoPriorityScoreInput) (idx : List ι) (i : ι) :
    (∃ key, i ∈ members inputs idx key) ∨ ∀ key, i ∉ members inputs idx key := by
  rw [← not_exists]
  exact em _

/-- The channels `idx'` are the channels `idx`, renamed and in some order, and their ids are distinct. -/
structure Renames (inputs : κ → AutoPriorityScoreInput) (φ : ι → κ) (idx : List ι) (idx' : List κ) : Prop where
  injective : Function.Injective φ
  perm : idx'.Perm (idx.map φ)
  nodup : idx.Nodup
  ids : ∀ x ∈ idx', ∀ y ∈ idx', (inputs x).channelID = (inputs y).channelID → x = y

section

variable (h : Renames inputs φ idx idx')

include h

theorem Renames.mem {i : ι} (hi : i ∈ idx) : φ i ∈ idx' :=
  h.perm.mem_iff.mpr (mem_map_of_mem hi)

theorem Renames.mem_members_iff {key : String} {i : ι} :
    φ i ∈ members inputs idx' key ↔ i ∈ members (inputs ∘ φ) idx key := by
  rw [(members_perm h.perm key).mem_iff, mem_map_of_injective h.injective]

theorem Renames.exists_mem {key : String} {P : κ → Prop} :
    (∃ j ∈ members inputs idx' key, P j) ↔ ∃ j ∈ members (inputs ∘ φ) idx key, P (φ j) := by
  constructor
  · rintro ⟨j', hj', hP⟩
    obtain ⟨j, hj, rfl⟩ := mem_map.mp ((members_perm h.perm key).mem_iff.mp hj')
    exact ⟨j, hj, hP⟩
  · rintro ⟨j, hj, hP⟩
    exact ⟨φ j, h.mem_members_iff.mpr hj, hP⟩

/-- **The list of a cohort** in the order of its passes is the renamed one. -/
theorem Renames.cohortAt (maxPriority : Int) (key : String) :
    cohortAt inputs idx' maxPriority key = (cohortAt (inputs ∘ φ) idx maxPriority key).rename φ := by
  have hlist : ordered inputs (members inputs idx' key) =
      (ordered (inputs ∘ φ) (members (inputs ∘ φ) idx key)).map φ := by
    have hsorted := pairwise_insertionSort (Precedes (inputs ∘ φ)) (members (inputs ∘ φ) idx key)
    have hperm : (ordered inputs (members inputs idx' key)).Perm
        ((ordered (inputs ∘ φ) (members (inputs ∘ φ) idx key)).map φ) :=
      (perm_insertionSort _ _).trans ((members_perm h.perm key).trans ((perm_insertionSort _ _).map φ).symm)
    refine List.Perm.eq_of_pairwise ?_ (pairwise_insertionSort (Precedes inputs) _) (pairwise_map.mpr hsorted) hperm
    intro x y hx hy hxy hyx
    -- two channels that precede each other have the same rate and the same id
    have hin : ∀ z ∈ ordered inputs (members inputs idx' key), z ∈ idx' := fun z hz =>
      (mem_filter.mp ((mem_insertionSort _).mp hz)).1
    have hids : (inputs x).channelID = (inputs y).channelID := by
      rcases hxy with hlt | ⟨hrate, hle⟩
      · rcases hyx with hlt' | ⟨hrate', -⟩
        · exact absurd hlt (lt_asymm hlt')
        · exact absurd hlt (by rw [hrate']; exact lt_irrefl _)
      · rcases hyx with hlt' | ⟨-, hle'⟩
        · exact absurd hlt' (by rw [hrate]; exact lt_irrefl _)
        · exact le_antisymm hle hle'
    exact h.ids x (hin x hx) y (hin y (hperm.mem_iff.mpr hy)) hids
  rw [Priority.cohortAt, Cohort.rename, hlist, priceOf_perm h.perm]
  rfl

end

end

/-! ### Cohorts in any order -/

section

variable {ι : Type} [DecidableEq ι] {A : Arith} {inputs : ι → AutoPriorityScoreInput} {idx : List ι}
  {order : List String} {results : ι → AutoPriorityScoreResult} {maxPriority : Int}

theorem pricePass_of_not_mem {i : ι} (h : ∀ key ∈ order, i ∉ members inputs idx key) :
    pricePass inputs idx order results i = results i := by
  refine foldlRecOn (motive := fun r : ι → AutoPriorityScoreResult => r i = results i) order _ rfl ?_
  intro r hr key hkey
  show (if i ∈ members inputs idx key then withPrice (priceOf inputs idx key) (r i) else r i) = _
  rw [if_neg (h key hkey), hr]

theorem pricePass_of_mem {key : String} (hnodup : order.Nodup) (hkey : key ∈ order) {i : ι}
    (hi : i ∈ members inputs idx key) :
    pricePass inputs idx order results i = withPrice (priceOf inputs idx key) (results i) := by
  obtain ⟨pre, post, rfl⟩ := append_of_mem hkey
  obtain ⟨-, hrest, hdisjoint⟩ := nodup_append.mp hnodup
  have hother : ∀ key', key' ≠ key → i ∉ members inputs idx key' := fun key' hne hin =>
    hne ((mem_members.mp hin).2.2.symm.trans (mem_members.mp hi).2.2)
  have hpre : pricePass inputs idx pre results i = results i :=
    pricePass_of_not_mem fun key' hkey' => hother key' (hdisjoint key' hkey' key mem_cons_self)
  rw [pricePass, foldl_append, foldl_cons]
  refine (pricePass_of_not_mem fun key' hkey' => hother key' ?_).trans ?_
  · rintro rfl
    exact (nodup_cons.mp hrest).1 hkey'
  · show (if i ∈ members inputs idx key then
      withPrice (priceOf inputs idx key) (pricePass inputs idx pre results i) else _) = _
    rw [if_pos hi, hpre]

theorem dominated_of_not_mem {orders : Orders inputs idx} {i : ι}
    (h : ∀ key, i ∉ members inputs idx key) : dominated A inputs idx orders maxPriority i =
      { result := scored A inputs idx orders.price.keys maxPriority i, isProtected := false } := by
  refine foldlRecOn (motive := fun s : ι → Cell => s i =
    { result := scored A inputs idx orders.price.keys maxPriority i, isProtected := false })
    orders.dominance.keys _ rfl ?_
  intro s hs key _
  rw [dominateCohort_of_not_mem fun hin => h key (mem_cohortAt.mp hin), hs]

theorem release_iff (order : CohortOrder inputs idx) {i : ι} : release inputs idx order.keys results i = true ↔
    (results i).movable = true ∧ ∃ key, i ∈ members inputs idx key ∧ ∃ j ∈ members inputs idx key,
      (inverted (results i) (results j) || inverted (results j) (results i)) = true := by
  rw [release, Bool.and_eq_true, any_eq_true]
  refine and_congr_right fun _ => ⟨?_, ?_⟩
  · rintro ⟨key, -, hkey⟩
    rw [Bool.and_eq_true, decide_eq_true_eq, any_eq_true] at hkey
    exact ⟨key, hkey⟩
  · rintro ⟨key, hi, hj⟩
    refine ⟨key, (order.mem_iff key).mpr (ne_nil_of_mem hi), ?_⟩
    rw [Bool.and_eq_true, decide_eq_true_eq, any_eq_true]
    exact ⟨hi, hj⟩

end

/-! ### All passes -/

section

variable {ι κ : Type} [DecidableEq ι] [DecidableEq κ] {A : Arith} {inputs : κ → AutoPriorityScoreInput}
  {φ : ι → κ} {idx : List ι} {idx' : List κ} {orders : Orders (inputs ∘ φ) idx} {orders' : Orders inputs idx'}
  {maxPriority : Int}

theorem Renames.scored (h : Renames inputs φ idx idx') (order : CohortOrder (inputs ∘ φ) idx)
    (order' : CohortOrder inputs idx') (i : ι) :
    scored A inputs idx' order'.keys maxPriority (φ i) = scored A (inputs ∘ φ) idx order.keys maxPriority i := by
  rw [Priority.scored, Priority.scored]
  rcases members_cases (inputs ∘ φ) idx i with ⟨key, hi⟩ | hnone
  · have hi' := h.mem_members_iff.mpr hi
    rw [pricePass_of_mem order.nodup ((order.mem_iff key).mpr (ne_nil_of_mem hi)) hi,
      pricePass_of_mem order'.nodup ((order'.mem_iff key).mpr (ne_nil_of_mem hi')) hi', priceOf_perm h.perm]
    rfl
  · rw [pricePass_of_not_mem fun key _ => hnone key,
      pricePass_of_not_mem fun key _ hin => hnone key (h.mem_members_iff.mp hin)]
    rfl

theorem Renames.dominated (h : Renames inputs φ idx idx') (i : ι) :
    dominated A inputs idx' orders' maxPriority (φ i) = dominated A (inputs ∘ φ) idx orders maxPriority i := by
  rcases members_cases (inputs ∘ φ) idx i with ⟨key, hi⟩ | hnone
  · have hi' := h.mem_members_iff.mpr hi
    obtain ⟨cells, hinit, hcells⟩ := dominated_eq orders (ne_nil_of_mem hi)
    obtain ⟨cells', hinit', hcells'⟩ := dominated_eq orders' (ne_nil_of_mem hi')
    rw [hcells i hi, hcells' (φ i) hi', h.cohortAt]
    refine dominateCohort_rename h.injective (fun x hx => ?_) i (mem_cohortAt.mpr hi)
    have hx' := mem_cohortAt.mp hx
    rw [hinit x hx', hinit' (φ x) (h.mem_members_iff.mpr hx'), h.scored orders.price orders'.price]
  · rw [dominated_of_not_mem hnone, dominated_of_not_mem fun key hin => hnone key (h.mem_members_iff.mp hin),
      h.scored orders.price orders'.price]

section

variable {s : ι → AutoPriorityScoreResult} {t : κ → AutoPriorityScoreResult}
  (hst : ∀ i ∈ idx, t (φ i) = s i)

include hst

section

variable (h : Renames inputs φ idx idx')

include h

theorem Renames.release {i : ι} (hi : i ∈ idx) :
    release inputs idx' orders'.reconcile.keys t (φ i) = release (inputs ∘ φ) idx orders.reconcile.keys s i := by
  rw [Bool.eq_iff_iff, release_iff, release_iff, hst i hi]
  refine and_congr_right fun _ => exists_congr fun key => ?_
  rw [h.mem_members_iff, h.exists_mem]
  refine and_congr_right fun _ => exists_congr fun j => and_congr_right fun hj => ?_
  rw [hst j (mem_members.mp hj).1]

theorem Renames.any_release :
    (idx'.any fun i => Priority.release inputs idx' orders'.reconcile.keys t i) =
      idx.any fun i => Priority.release (inputs ∘ φ) idx orders.reconcile.keys s i := by
  rw [Bool.eq_iff_iff, any_eq_true, any_eq_true]
  constructor
  · rintro ⟨i', hi', hrelease⟩
    obtain ⟨i, hi, rfl⟩ := mem_map.mp (h.perm.mem_iff.mp hi')
    exact ⟨i, hi, (h.release hst hi).symm.trans hrelease⟩
  · rintro ⟨i, hi, hrelease⟩
    exact ⟨φ i, h.mem hi, (h.release hst hi).trans hrelease⟩

theorem Renames.violated {e : ι} (he : e ∈ idx) :
    violated A inputs idx' maxPriority t (φ e) = violated A (inputs ∘ φ) idx maxPriority s e := by
  have hmargin : ∀ key, marginOf A inputs idx' maxPriority key = marginOf A (inputs ∘ φ) idx maxPriority key := by
    intro key
    rw [marginOf, h.cohortAt]
    exact priorityMargin_rename h.injective
  by_cases hin : e ∈ members (inputs ∘ φ) idx (cohortOf (inputs ∘ φ) e)
  · rw [Bool.eq_iff_iff, violated_iff (h.mem_members_iff.mpr hin), violated_iff hin, hst e he, hmargin, h.exists_mem]
    refine and_congr_right fun _ => and_congr_right fun _ => exists_congr fun c => and_congr_right fun hc => ?_
    rw [hst c (mem_members.mp hc).1]
    rfl
  · have hin' : φ e ∉ members inputs idx' (cohortOf inputs (φ e)) := fun hmem => hin (h.mem_members_iff.mp hmem)
    simp [Priority.violated, hin, hin']

end

end

/-- **All passes** give the renamed channels the same results. -/
theorem Renames.scoreAll (h : Renames inputs φ idx idx') (orders : Orders (inputs ∘ φ) idx)
    (orders' : Orders inputs idx') (hmax : 0 ≤ maxPriority) :
    ∃ r r', scoreAll A (inputs ∘ φ) idx orders maxPriority = some r ∧
      scoreAll A inputs idx' orders' maxPriority = some r' ∧ ∀ i ∈ idx, r' (φ i) = r i := by
  have hidx' : idx'.Nodup := h.perm.nodup_iff.mpr ((nodup_map_iff h.injective).mpr h.nodup)
  obtain ⟨mid, hmid, -, hscore⟩ := scoreAll_some A orders h.nodup hmax
  obtain ⟨mid', hmid', -, hscore'⟩ := scoreAll_some A orders' hidx' hmax
  have hsame : ∀ i ∈ idx, mid' (φ i) = mid i := by
    have hlen : idx'.length = idx.length := by rw [h.perm.length_eq, length_map]
    obtain ⟨t, ht, hrel⟩ := untilStop_rel
      (R := fun (s : ι → AutoPriorityScoreResult) (t : κ → AutoPriorityScoreResult) => ∀ i ∈ idx, t (φ i) = s i)
      (t := fun i => hold (inputs i) (Priority.dominated A inputs idx' orders' maxPriority i))
      (fun s t hst => congrArg not (h.any_release hst).symm) (fun s t hst i hi => by
        show releaseAll inputs idx' orders'.reconcile.keys t (φ i) = releaseAll _ idx orders.reconcile.keys s i
        rw [releaseAll, releaseAll, h.release hst hi, hst i hi])
      (fun i _ => congrArg (hold (inputs (φ i))) (h.dominated i)) hmid
    rw [reconcileAutoPriorityHysteresisOrdering, hlen] at hmid'
    obtain rfl := Option.some.inj (hmid'.symm.trans ht)
    exact hrel
  refine ⟨_, _, hscore, hscore', fun i hi => ?_⟩
  rw [repaired, repaired, h.violated hsame hi, hsame i hi]

end

/-! ### The function -/

theorem renames_get {inputs inputs' : List AutoPriorityScoreInput}
    (hids : (inputs.map AutoPriorityScoreInput.channelID).Nodup) (hperm : inputs.Perm inputs') :
    Renames (fun input => input) inputs'.get (finRange inputs'.length) inputs where
  injective := by
    have hnodup : inputs'.Nodup := (hperm.nodup_iff).mp (List.Nodup.of_map _ hids)
    exact nodup_iff_injective_get.mp hnodup
  perm := by
    rw [← ofFn_eq_map, ofFn_get]
    exact hperm
  nodup := nodup_finRange _
  ids := fun _ hx _ hy heq => inj_on_of_nodup_map hids hx hy heq

theorem score_eq_map {A : Arith} {inputs inputs' : List AutoPriorityScoreInput}
    (hids : (inputs.map AutoPriorityScoreInput.channelID).Nodup) (hperm : inputs.Perm inputs')
    (orders' : SliceOrders inputs') (all : Orders (fun input => input) inputs) (maxPriority : Int) :
    ∃ score, scoreAll A (fun input => input) inputs all (effectiveMaxPriority maxPriority) = some score ∧
      scoreAutoPriorityCandidates A inputs' orders' maxPriority = some (inputs'.map score) := by
  obtain ⟨r, score, hr, hscore, hsame⟩ :=
    (renames_get hids hperm).scoreAll (A := A) orders' all (effectiveMaxPriority_pos maxPriority).le
  refine ⟨score, hscore, ?_⟩
  have hall : scoreAll A inputs'.get (finRange inputs'.length) orders' (effectiveMaxPriority maxPriority) = some r := hr
  have hmap : ofFn r = inputs'.map score := by
    calc ofFn r = ofFn (score ∘ inputs'.get) :=
          congrArg ofFn (funext fun i => (hsame i (mem_finRange i)).symm)
      _ = (ofFn inputs'.get).map score := map_ofFn.symm
      _ = inputs'.map score := by rw [ofFn_get]
  rw [scoreAutoPriorityCandidates, hall, Option.map_some, hmap]

/-- **The order of the inputs does not matter**: the result of a channel is a function of its input, the same for
every permutation of a slice with distinct ids and for every order of the ranges over the cohorts. -/
theorem scoring_ignores_input_order (A : Arith) {inputs inputs' : List AutoPriorityScoreInput}
    (hids : (inputs.map AutoPriorityScoreInput.channelID).Nodup) (hperm : inputs.Perm inputs')
    (orders : SliceOrders inputs) (orders' : SliceOrders inputs') (maxPriority : Int) :
    ∃ score : AutoPriorityScoreInput → AutoPriorityScoreResult,
      scoreAutoPriorityCandidates A inputs orders maxPriority = some (inputs.map score) ∧
      scoreAutoPriorityCandidates A inputs' orders' maxPriority = some (inputs'.map score) := by
  have all : Orders (fun input : AutoPriorityScoreInput => input) inputs :=
    ⟨.firstSeen _ _, .firstSeen _ _, .firstSeen _ _, .firstSeen _ _⟩
  obtain ⟨score, hall, hscore⟩ := score_eq_map hids (List.Perm.refl inputs) orders all maxPriority
  obtain ⟨score', hall', hscore'⟩ := score_eq_map hids hperm orders' all maxPriority
  obtain rfl := Option.some.inj (hall.symm.trans hall')
  exact ⟨score, hscore, hscore'⟩

theorem cheapAndDear_reversed : ∃ score : AutoPriorityScoreInput → AutoPriorityScoreResult,
      scoreAutoPriorityCandidates (.exact fun x => x) cheapAndDear cheapAndDearOrders 1000 =
        some (cheapAndDear.map score) ∧ scoreAutoPriorityCandidates (.exact fun x => x) cheapAndDear.reverse
        ⟨.firstSeen _ _, .firstSeen _ _, .firstSeen _ _, .firstSeen _ _⟩ 1000 =
        some (cheapAndDear.reverse.map score) :=
  scoring_ignores_input_order (.exact fun x => x) (by decide) (reverse_perm cheapAndDear).symm
    cheapAndDearOrders _ 1000

end WynthApi.Priority
