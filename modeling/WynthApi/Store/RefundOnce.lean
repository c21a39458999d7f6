import WynthApi.Lib.Run
import WynthApi.Store.Subscription

/-!
# Concurrent and retried refunds of one pre-consume record

`RefundSubscriptionPreConsume` is taken apart into its statements: the locking `SELECT`, the usage
update, the status update and the commit.  Any number of callers interleave, each may fail at any
statement, and a caller may call again (`refundWithRetry` does so up to three times).  The usage
update runs on `DB` and not on `tx`, so it stays when the transaction rolls back.
-/

namespace WynthApi.Store.RefundOnce

open StepSys AList

/-- Where an open refund transaction is: it has read the record, its usage update has committed, it
has written the new status, or it has found the record refunded. -/
inductive Tx where
  | selected (record : SubscriptionPreConsumeRecord)
  | updated (record : SubscriptionPreConsumeRecord)
  | saved (record : SubscriptionPreConsumeRecord)
  | found
  deriving DecidableEq

/-- `succeeded`: some call has returned without an error. -/
structure Sys where
  db : DB
  txs : AList fun _ : ℕ => Tx
  succeeded : Bool

inductive Action where
  | select (caller : ℕ) (fault : Fault)
  | delta (caller : ℕ) (fault : Fault)
  | save (caller : ℕ) (fault : Fault)
  | commit (caller : ℕ) (fault : Fault)
  | others (db : DB)

section Defs

variable (rowLock : Bool) (requestId : String)

def opened (record : SubscriptionPreConsumeRecord) : Tx :=
  if record.status = .refunded then .found
  else if record.preConsumed ≤ 0 then .updated record
  else .selected record

def Sys.rollback (s : Sys) (c : ℕ) : Sys := { s with txs := s.txs.erase c }

def Sys.setTx (s : Sys) (c : ℕ) (t : Tx) : Sys := { s with txs := s.txs.insert c t }

/-- One statement.  `rowLock` is false on SQLite, where `lockForUpdate` does nothing and the second
of two conflicting writers fails instead of waiting. -/
def step (s : Sys) : Action → Sys
  | .select c fault =>
    if s.txs.lookup c ≠ none ∨ (rowLock = true ∧ s.txs.entries ≠ []) then s
    else match fault, s.db.records.lookup requestId with
      | none, some record => s.setTx c (opened record)
      | _, _ => s
  | .delta c fault =>
    match s.txs.lookup c with
    | some (.selected r) =>
      match postConsumeUserSubscriptionDelta s.db r.userSubscriptionId (-r.preConsumed) fault with
      | .error _ => s.rollback c
      | .ok db => { s with db }.setTx c (.updated r)
    | _ => s
  | .save c fault =>
    match s.txs.lookup c with
    | some (.updated r) =>
      if fault = none ∧ (rowLock = true ∨ s.db.records.lookup requestId = some r) then
        s.setTx c (.saved r)
      else s.rollback c
    | _ => s
  | .commit c fault =>
    match s.txs.lookup c, fault with
    | some (.saved r), none =>
      { s.rollback c with db := markRefunded s.db requestId r, succeeded := true }
    | some .found, none => { s.rollback c with succeeded := true }
    | some (.saved _), some _ => s.rollback c
    | some .found, some _ => s.rollback c
    | _, _ => s
  | .others db => { s with db := { db with journal := s.db.journal } }

def start (db : DB) : Sys := ⟨db, ∅, false⟩

variable (r : SubscriptionPreConsumeRecord) (s : Sys)

def subtracted : Int :=
  -taken s.db.journal (.subscription r.userSubscriptionId)

/-- The record is refunded at most once, and once if a call returned success. -/
def RefundedOnce : Prop :=
  subtracted r s ≤ r.preConsumed ∧ (s.succeeded = true → subtracted r s = r.preConsumed)
  deriving Decidable

def Covered (db : DB) (r : SubscriptionPreConsumeRecord) : Prop :=
  ∀ sub, db.subs.lookup r.userSubscriptionId = some sub → r.preConsumed ≤ sub.amountUsed

/-- No call fails after its usage update, the usage covers the refund, and without row locks no
two calls overlap.  Others leave the record alone. -/
def Safe : Action → Prop
  | .select _ _ => rowLock = true ∨ s.txs.entries = []
  | .delta _ fault => fault = none → Covered s.db r
  | .save c fault => ∀ r', s.txs.lookup c = some (.updated r') → fault = none
  | .commit c fault => ∀ r', s.txs.lookup c = some (.saved r') → fault = none
  | .others db => db.records.lookup requestId = s.db.records.lookup requestId

end Defs

/-! ### One call without interruption -/

section Alone

variable {rowLock : Bool} {requestId : String}

def callOf (c : ℕ) (f : RefundFaults) : List Action :=
  [.select c f.select, .delta c f.delta, .save c f.save, .commit c f.commit]

@[simp] theorem lookup_singleton (c : ℕ) (t : Tx) : (singleton c t : AList fun _ : ℕ => Tx).lookup c = some t :=
  List.dlookup_cons_eq ..

@[simp] theorem erase_singleton (c : ℕ) (t : Tx) : (singleton c t : AList fun _ : ℕ => Tx).erase c = ∅ :=
  ext (List.kerase_cons_eq rfl)

variable {f : RefundFaults}

section Statements

variable {db : DB} {b : Bool} {c : ℕ} {fault : Fault} {r : SubscriptionPreConsumeRecord} {t : Tx}

theorem step_select_alone : step rowLock requestId ⟨db, ∅, b⟩ (.select c fault) =
    match fault, db.records.lookup requestId with
    | none, some record => ⟨db, singleton c (opened record), b⟩
    | _, _ => ⟨db, ∅, b⟩ := by
  have hwait : ¬ ((∅ : AList fun _ : ℕ => Tx).lookup c ≠ none ∨
      (rowLock = true ∧ (∅ : AList fun _ : ℕ => Tx).entries ≠ [])) := by simp
  simp only [step, if_neg hwait]
  cases fault with
  | some e => rfl
  | none =>
    cases db.records.lookup requestId with
    | none => rfl
    | some record => simp [Sys.setTx]

theorem step_save_alone (hrec : db.records.lookup requestId = some r) :
    step rowLock requestId ⟨db, singleton c (.updated r), b⟩ (.save c fault) =
      match fault with
      | none => ⟨db, singleton c (.saved r), b⟩
      | some _ => ⟨db, ∅, b⟩ := by
  simp only [step, lookup_singleton]
  cases fault with
  | some e => simp [Sys.rollback]
  | none => simp [Sys.setTx, hrec]

theorem run_idle : run (step rowLock requestId) ⟨db, ∅, b⟩
    [.delta c f.delta, .save c f.save, .commit c f.commit] = ⟨db, ∅, b⟩ := by
  simp [step]

theorem run_save_commit (hrec : db.records.lookup requestId = some r) :
    run (step rowLock requestId) ⟨db, singleton c (.updated r), b⟩ [.save c f.save, .commit c f.commit] =
      match f.save.or f.commit with
      | some _ => ⟨db, ∅, b⟩
      | none => ⟨markRefunded db requestId r, ∅, true⟩ := by
  rw [run_cons, step_save_alone hrec]
  cases hs : f.save with
  | some e => simp [step]
  | none =>
    cases hc : f.commit <;> simp [step, Sys.rollback]

end Statements

/-- **Refinement**: the four statements of one caller, with nothing in between, are the function. -/
theorem call_alone {db : DB} {b : Bool} {c : ℕ}
    (hid : GoText.isBlank requestId = false) : run (step rowLock requestId) ⟨db, ∅, b⟩ (callOf c f) =
      ⟨(refundSubscriptionPreConsume db requestId f).1, ∅,
        b || (refundSubscriptionPreConsume db requestId f).2.isNone⟩ := by
  rw [callOf, run_cons, step_select_alone, refundSubscriptionPreConsume, if_neg (by simp [hid])]
  cases f.select with
  | some e =>
    rw [run_idle]
    simp
  | none =>
    cases hrec : db.records.lookup requestId with
    | none =>
      rw [run_idle]
      simp
    | some record =>
      simp only
      by_cases hst : record.status = .refunded
      · simp only [opened, if_pos hst]
        cases hc : f.commit <;> simp [step, Sys.rollback]
      by_cases hp : record.preConsumed ≤ 0
      · -- nothing to give back: the usage update is skipped
        have hskip : step rowLock requestId ⟨db, singleton c (.updated record), b⟩
            (.delta c f.delta) = ⟨db, singleton c (.updated record), b⟩ := by simp [step]
        simp only [opened, if_neg hst, if_pos hp]
        rw [run_cons, hskip, run_save_commit hrec]
        cases f.save.or f.commit <;> simp
      · simp only [opened, if_neg hst, if_neg hp]
        rw [run_cons]
        cases hd : postConsumeUserSubscriptionDelta db record.userSubscriptionId
            (-record.preConsumed) f.delta with
        | error e => simp [step, Sys.rollback, hd]
        | ok db₁ =>
          have hup : step rowLock requestId ⟨db, singleton c (.selected record), b⟩
              (.delta c f.delta) = ⟨db₁, singleton c (.updated record), b⟩ := by
            simp [step, Sys.setTx, hd]
          have hrec₁ : db₁.records.lookup requestId = some record := by
            rw [postConsume_records hd, hrec]
          rw [hup, run_save_commit hrec₁]
          cases f.save.or f.commit <;> simp

end Alone

section Proofs

variable {rowLock : Bool} {requestId : String} {r : SubscriptionPreConsumeRecord} {s : Sys}

/-- Before the usage update: whatever is open has only read the record. -/
structure Before (requestId : String) (r : SubscriptionPreConsumeRecord) (s : Sys) : Prop where
  record : s.db.records.lookup requestId = some r
  none : subtracted r s = 0
  failed : s.succeeded = false
  one : ∀ c c' t t', s.txs.lookup c = some t → s.txs.lookup c' = some t' → c = c'
  txs : ∀ c t, s.txs.lookup c = some t → t = .selected r

/-- Between the usage update and the commit: one transaction is open, and it alone can go on. -/
structure Between (requestId : String) (r : SubscriptionPreConsumeRecord) (s : Sys) : Prop where
  record : s.db.records.lookup requestId = some r
  all : subtracted r s = r.preConsumed
  failed : s.succeeded = false
  owner : ∃ c t, s.txs.lookup c = some t ∧ (t = .updated r ∨ t = .saved r) ∧
    ∀ c' t', s.txs.lookup c' = some t' → c' = c

/-- After the commit: whatever is open has found the record refunded. -/
structure After (requestId : String) (r : SubscriptionPreConsumeRecord) (s : Sys) : Prop where
  record : s.db.records.lookup requestId = some { r with status := .refunded }
  all : subtracted r s = r.preConsumed
  txs : ∀ c t, s.txs.lookup c = some t → t = .found

def Inv (requestId : String) (r : SubscriptionPreConsumeRecord) (s : Sys) : Prop :=
  Before requestId r s ∨ Between requestId r s ∨ After requestId r s

theorem Inv.refundedOnce (hpos : 0 < r.preConsumed) (h : Inv requestId r s) : RefundedOnce r s := by
  rcases h with h | h | h
  · refine ⟨by rw [h.none]; omega, fun hs => ?_⟩
    rw [h.failed] at hs
    cases hs
  · exact ⟨h.all.le, fun _ => h.all⟩
  · exact ⟨h.all.le, fun _ => h.all⟩

variable {fault : Fault} {c : ℕ} {t : Tx} {txs : AList fun _ : ℕ => Tx}

theorem lookup_eq_none_of_entries (h : txs.entries = []) (c : ℕ) : txs.lookup c = none := by simp [lookup, h]

variable {c' : ℕ}

theorem lookup_of_erase (h : (txs.erase c).lookup c' = some t) : c' ≠ c ∧ txs.lookup c' = some t := by
  by_cases hc : c' = c
  · subst hc
    simp at h
  · exact ⟨hc, by rwa [lookup_erase_ne hc] at h⟩

theorem lookup_of_insert {t' : Tx} (h : (txs.insert c t).lookup c' = some t') :
    (c' = c ∧ t' = t) ∨ (c' ≠ c ∧ txs.lookup c' = some t') := by
  by_cases hc : c' = c
  · subst hc
    rw [lookup_insert, Option.some.injEq] at h
    exact .inl ⟨rfl, h.symm⟩
  · exact .inr ⟨hc, by rwa [lookup_insert_ne hc] at h⟩

theorem inv_select (hst : r.status = .consumed) (hpos : 0 < r.preConsumed) (hinv : Inv requestId r s)
    (hsafe : Safe rowLock requestId r s (.select c fault)) :
    Inv requestId r (step rowLock requestId s (.select c fault)) := by
  by_cases hwait : s.txs.lookup c ≠ none ∨ (rowLock = true ∧ s.txs.entries ≠ [])
  · simp only [step, if_pos hwait]
    exact hinv
  have hempty : s.txs.entries = [] := by
    simp only [not_or, not_and, not_not] at hwait
    rcases hsafe with hl | he
    · exact hwait.2 hl
    · exact he
  have hnone := lookup_eq_none_of_entries hempty
  have hp : ¬ r.preConsumed ≤ 0 := by omega
  simp only [step, if_neg hwait]
  rcases hinv with h | h | h
  · cases fault with
    | some e => exact .inl h
    | none =>
      have hopen : opened r = .selected r := by simp [opened, hst, hp]
      simp only [h.record, hopen]
      refine .inl ⟨h.record, h.none, h.failed, ?_, ?_⟩
      · intro c₁ c₂ t₁ t₂ h₁ h₂
        rcases lookup_of_insert h₁ with ⟨rfl, -⟩ | ⟨-, h₁⟩
        · rcases lookup_of_insert h₂ with ⟨rfl, -⟩ | ⟨-, h₂⟩
          · rfl
          · rw [hnone] at h₂
            cases h₂
        · rw [hnone] at h₁
          cases h₁
      · intro c₁ t₁ h₁
        rcases lookup_of_insert h₁ with ⟨-, rfl⟩ | ⟨-, h₁⟩
        · rfl
        · rw [hnone] at h₁
          cases h₁
  · obtain ⟨c', t, hc', -, -⟩ := h.owner
    rw [hnone] at hc'
    cases hc'
  · cases fault with
    | some e => exact .inr (.inr h)
    | none =>
      simp only [h.record, opened, if_true]
      refine .inr (.inr ⟨h.record, h.all, fun c₁ t₁ h₁ => ?_⟩)
      rcases lookup_of_insert h₁ with ⟨-, rfl⟩ | ⟨-, h₁⟩
      · rfl
      · exact h.txs c₁ t₁ h₁

theorem postConsume_covered {db db' : DB} (hpos : 0 < r.preConsumed) (hcov : fault = none → Covered db r)
    (h : postConsumeUserSubscriptionDelta db r.userSubscriptionId (-r.preConsumed) fault = .ok db') :
    taken db'.journal (.subscription r.userSubscriptionId) =
      taken db.journal (.subscription r.userSubscriptionId) - r.preConsumed := by
  obtain ⟨-, ⟨h0, -⟩ | ⟨-, hf, sub, hsub, -, rfl⟩⟩ := postConsume_cases h
  · omega
  have hle := hcov hf sub hsub
  have hclamp : clampUsed sub.amountUsed (-r.preConsumed) = sub.amountUsed - r.preConsumed := by
    unfold clampUsed
    split_ifs <;> omega
  simp only [post_journal, taken_append, taken_singleton, if_true, hclamp]
  omega

theorem Between.tx (h : Between requestId r s) (hc : s.txs.lookup c = some t) :
    (t = .updated r ∨ t = .saved r) ∧ ∀ c' t', s.txs.lookup c' = some t' → c' = c := by
  obtain ⟨c', t', hc', ht, hown⟩ := h.owner
  obtain rfl := hown c t hc
  rw [hc] at hc'
  obtain rfl := Option.some.inj hc'
  exact ⟨ht, hown⟩

theorem inv_delta (hpos : 0 < r.preConsumed) (hinv : Inv requestId r s)
    (hsafe : Safe rowLock requestId r s (.delta c fault)) :
    Inv requestId r (step rowLock requestId s (.delta c fault)) := by
  -- only a transaction that has just read the record does anything here
  by_cases hsel : ∃ r', s.txs.lookup c = some (.selected r')
  swap
  · have hnop : step rowLock requestId s (.delta c fault) = s := by
      simp only [step]
      split
      · exact absurd ⟨_, by assumption⟩ hsel
      · rfl
    rw [hnop]
    exact hinv
  obtain ⟨r', hc⟩ := hsel
  rcases hinv with h | h | h
  · have hr : r' = r := by
      have := h.txs c _ hc
      simpa using this
    subst hr
    simp only [step, hc]
    cases hd : postConsumeUserSubscriptionDelta s.db r'.userSubscriptionId (-r'.preConsumed) fault with
    | error e =>
      refine .inl ⟨h.record, h.none, h.failed, ?_, fun c₁ t₁ h₁ => h.txs c₁ t₁ (lookup_of_erase h₁).2⟩
      intro c₁ c₂ t₁ t₂ h₁ h₂
      exact h.one c₁ c₂ t₁ t₂ (lookup_of_erase h₁).2 (lookup_of_erase h₂).2
    | ok db =>
      have hz := h.none
      refine .inr (.inl ⟨?_, ?_, h.failed, c, .updated r', lookup_insert _, .inl rfl, fun c₁ t₁ h₁ => ?_⟩)
      · change db.records.lookup requestId = some r'
        rw [postConsume_records hd]
        exact h.record
      · change -taken db.journal (.subscription r'.userSubscriptionId) = r'.preConsumed
        rw [postConsume_covered hpos hsafe hd]
        unfold subtracted at hz
        omega
      · rcases lookup_of_insert h₁ with ⟨rfl, -⟩ | ⟨-, h₁⟩
        · rfl
        · exact h.one c₁ c t₁ _ h₁ hc
  · rcases (h.tx hc).1 with ht | ht <;> cases ht
  · have := h.txs c _ hc
    cases this

section

variable (hinv : Inv requestId r s)

include hinv

theorem Inv.updated {r' : SubscriptionPreConsumeRecord}
    (hc : s.txs.lookup c = some t) (ht : t = .updated r' ∨ t = .saved r') :
    r' = r ∧ Between requestId r s ∧ ∀ c' t', s.txs.lookup c' = some t' → c' = c := by
  rcases hinv with h | h | h
  · rw [h.txs c t hc] at ht
    rcases ht with ht | ht <;> cases ht
  · obtain ⟨ht', hown⟩ := h.tx hc
    refine ⟨?_, h, hown⟩
    rcases ht with rfl | rfl <;> rcases ht' with ht' | ht' <;> cases ht' <;> rfl
  · rw [h.txs c t hc] at ht
    rcases ht with ht | ht <;> cases ht

theorem inv_save (hsafe : Safe rowLock requestId r s (.save c fault)) :
    Inv requestId r (step rowLock requestId s (.save c fault)) := by
  by_cases hup : ∃ r', s.txs.lookup c = some (.updated r')
  swap
  · have hnop : step rowLock requestId s (.save c fault) = s := by
      simp only [step]
      split
      · exact absurd ⟨_, by assumption⟩ hup
      · rfl
    rw [hnop]
    exact hinv
  obtain ⟨r', hc⟩ := hup
  obtain ⟨rfl, h, hown⟩ := hinv.updated hc (.inl rfl)
  have hf := hsafe r' hc
  simp only [step, hc]
  rw [if_pos ⟨hf, .inr h.record⟩]
  refine .inr (.inl ⟨h.record, h.all, h.failed, c, .saved r', lookup_insert _, .inr rfl, fun c₁ t₁ h₁ => ?_⟩)
  rcases lookup_of_insert h₁ with ⟨rfl, -⟩ | ⟨-, h₁⟩
  · rfl
  · exact hown c₁ t₁ h₁

theorem inv_commit (hsafe : Safe rowLock requestId r s (.commit c fault)) :
    Inv requestId r (step rowLock requestId s (.commit c fault)) := by
  cases hc : s.txs.lookup c with
  | none =>
    simp only [step, hc]
    exact hinv
  | some t =>
    cases t with
    | selected | updated =>
      simp only [step, hc]
      exact hinv
    | saved r' =>
      obtain ⟨rfl, h, hown⟩ := hinv.updated hc (.inr rfl)
      obtain rfl := hsafe r' hc
      simp only [step, hc]
      refine .inr (.inr ⟨lookup_insert _, h.all, fun c₁ t₁ h₁ => ?_⟩)
      obtain ⟨hne, h₁⟩ := lookup_of_erase h₁
      exact absurd (hown c₁ t₁ h₁) hne
    | found =>
      rcases hinv with h | h | h
      · have := h.txs c _ hc
        cases this
      · rcases (h.tx hc).1 with ht | ht <;> cases ht
      · cases fault with
        | none | some =>
          simp only [step, hc]
          exact .inr (.inr ⟨h.record, h.all, fun c₁ t₁ h₁ => h.txs c₁ t₁ (lookup_of_erase h₁).2⟩)

theorem inv_others {db : DB} (hsafe : Safe rowLock requestId r s (.others db)) :
    Inv requestId r (step rowLock requestId s (.others db)) := by
  have hrec : db.records.lookup requestId = s.db.records.lookup requestId := hsafe
  rcases hinv with h | h | h
  · exact .inl ⟨hrec.trans h.record, h.none, h.failed, h.one, h.txs⟩
  · exact .inr (.inl ⟨hrec.trans h.record, h.all, h.failed, h.owner⟩)
  · exact .inr (.inr ⟨hrec.trans h.record, h.all, h.txs⟩)

end

theorem inv_step (hst : r.status = .consumed) (hpos : 0 < r.preConsumed) (s : Sys) (a : Action)
    (hinv : Inv requestId r s) (hsafe : Safe rowLock requestId r s a) :
    Inv requestId r (step rowLock requestId s a) := by
  cases a with
  | select c fault => exact inv_select hst hpos hinv hsafe
  | delta c fault => exact inv_delta hpos hinv hsafe
  | save c fault => exact inv_save hinv hsafe
  | commit c fault => exact inv_commit hinv hsafe
  | others db => exact inv_others hinv hsafe

/-- **Refund once**: in every run whose steps are safe, a consumed record is refunded at most once,
and exactly once if a call returned success. -/
theorem refunded_once_of_safe {db : DB} {as : List Action} (hjournal : db.journal = [])
    (hrec : db.records.lookup requestId = some r) (hst : r.status = .consumed) (hpos : 0 < r.preConsumed)
    (hsafe : Along (step rowLock requestId) (Safe rowLock requestId r) (start db) as) :
    RefundedOnce r (run (step rowLock requestId) (start db) as) := by
  have hstart : Inv requestId r (start db) := by
    refine .inl ⟨hrec, ?_, rfl, fun c _ t _ hc => ?_, fun c t hc => ?_⟩
    · change -taken db.journal _ = 0
      rw [hjournal, taken_nil, neg_zero]
    · simp [start] at hc
    · simp [start] at hc
  exact (run_inv (inv_step hst hpos) hstart hsafe).refundedOnce hpos

end Proofs

/-! ### A retry that refunds twice -/

def exampleRecord : SubscriptionPreConsumeRecord := ⟨1, 7, 100, .consumed⟩

def exampleDB : DB :=
  { userQuota := fun _ => 0, tokenQuota := fun _ => 0
    subs := AList.singleton 7 ⟨1, 1, 1000, 300, 0, 10, .active, 0, 0⟩
    records := AList.singleton "r" exampleRecord, journal := [] }

/-- One call fails at its usage update, the next one refunds, a third one finds it refunded. -/
theorem refunded_once_after_failed_update :
    RefundedOnce exampleRecord (run (step true "r") (start exampleDB)
      [.select 0 none, .delta 0 (some "timeout"), .select 1 none, .delta 1 none, .save 1 none,
        .commit 1 none, .select 0 none, .commit 0 none]) := by
  refine refunded_once_of_safe rfl rfl rfl (by decide) ?_
  refine ⟨.inl rfl, nofun, .inl rfl, fun _ sub hsub => ?_, fun _ _ => rfl,
    fun _ _ => rfl, .inl rfl, fun _ _ => rfl, trivial⟩
  obtain rfl := Option.some.inj (show some _ = some sub from hsub)
  decide

/-- The status update of the first attempt fails after its usage update has committed; the retry
subtracts the amount again. -/
theorem refunded_twice_after_failed_save :
    ¬ RefundedOnce exampleRecord (run (step true "r") (start exampleDB)
      [.select 0 none, .delta 0 none, .save 0 (some "deadlock"), .select 0 none, .delta 0 none,
        .save 0 none, .commit 0 none]) := by
  decide

theorem call_alone_of_consumed : run (step true "r") (start exampleDB) (callOf 0 {}) =
    ⟨(refundSubscriptionPreConsume exampleDB "r" {}).1, ∅, true⟩ :=
  call_alone (by decide)

end WynthApi.Store.RefundOnce
