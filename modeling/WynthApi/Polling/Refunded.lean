import WynthApi.Polling.System

/-!
# A failed task gets its charge back, once

While the row is live nothing has been billed and every live copy carries the charge `q`.  A row that is `FAILURE`
has either one handler about to refund `q`, or one entry of `-q` on its funding account.

Six paths write `FAILURE`.  The sweeper, the Suno poller and the video poller refund; the two bulk updates and the
realtime fetch do not, and are what `Refunding` leaves out.
-/

namespace WynthApi.Polling

open Store StepSys Function

/-- The subscription behind a task takes the refund in full. -/
def RefundAccepted (db : DB) (t : Task) : Prop :=
  taskIsSubscription t = true → ∃ sub, db.subs.lookup t.privateData.subscriptionId = some sub ∧
    t.quota ≤ sub.amountUsed ∧
    ¬ (0 < sub.amountTotal ∧ sub.amountTotal < sub.amountUsed - t.quota)

instance (db : DB) (t : Task) : Decidable (RefundAccepted db t) :=
  decidable_of_iff (taskIsSubscription t = true →
      (db.subs.lookup t.privateData.subscriptionId).any (fun sub =>
        decide (t.quota ≤ sub.amountUsed ∧
          ¬ (0 < sub.amountTotal ∧ sub.amountTotal < sub.amountUsed - t.quota))) = true) <| by
    simp only [RefundAccepted, Option.any_eq_true, decide_eq_true_eq]

/-- The answers that keep a task refundable: a user's fetch does not report `FAILURE`, and a Suno
item does not move the submission before the legacy cut-off. -/
def Work.Harmless : Work → Prop
  | .realtime (some info) => info.status ≠ "FAILURE"
  | .suno item => item.submitTime = 0 ∨ taskRefundLegacyCutoff ≤ item.submitTime
  | _ => True

instance (w : Work) : Decidable w.Harmless := by
  unfold Work.Harmless
  split <;> infer_instance

/-- The runs in which failures are refunded: work starts from live copies, bulk updates hit only what
has failed already, and the store accepts a refund. -/
def Refunding (s : Sys) : Action → Prop
  | .work h w _ => (s.handlerAll h fun hd => !decide hd.copy.status.IsTerminal) ∧ w.Harmless
  | .bulkFail _ _ => s.row.status = .failure
  | .money h _ fault _ => s.handlerAll h fun hd =>
      hd.phase = .billing .refund → fault = none ∧ RefundAccepted s.db hd.copy
  | _ => True

instance (s : Sys) : (a : Action) → Decidable (Refunding s a)
  | .work _ _ _ => inferInstanceAs (Decidable (_ ∧ _))
  | .bulkFail _ _ => inferInstanceAs (Decidable (s.row.status = .failure))
  | .money _ _ _ _ => inferInstanceAs (Decidable (s.handlerAll _ _))
  | .read _ _ _ | .write _ _ | .finish _ | .others _ => isTrue trivial

def ReturnedOnce (row : Task) (q : Int) (s : Sys) : Prop :=
  entriesOn s.db.journal (fundingAccount row) = [⟨fundingAccount row, -q, -q⟩]

/-! ### The refund statement -/

variable {db : DB} {t : Task}

theorem refundMoney_accepted (hq : t.quota ≠ 0) (hacc : RefundAccepted db t)
    (token : TokenAnswer) : ∃ db', refundMoney db t none token = some (db', 0) ∧
      entriesOn db'.journal (fundingAccount t) =
        entriesOn db.journal (fundingAccount t) ++ [⟨fundingAccount t, -t.quota, -t.quota⟩] := by
  have hne : -t.quota ≠ 0 := by omega
  have hcov : Covers db t (-t.quota) := by
    intro hs sub hsub
    obtain ⟨sub', hsub', hle, -⟩ := hacc hs
    rw [hsub] at hsub'
    obtain rfl := Option.some.inj hsub'
    omega
  have hfund : ∃ d, taskAdjustFunding db t (-t.quota) none = .ok d := by
    unfold taskAdjustFunding
    cases hs : taskIsSubscription t with
    | true =>
      obtain ⟨sub, hsub, hle, hfit⟩ := hacc hs
      have hid : ¬ t.privateData.subscriptionId ≤ 0 := by
        simp only [taskIsSubscription, Bool.and_eq_true, decide_eq_true_eq] at hs
        omega
      have hused : clampUsed sub.amountUsed (-t.quota) = sub.amountUsed - t.quota :=
        clampUsed_of_nonneg (by omega)
      have hroom : ¬ (0 < sub.amountTotal ∧ sub.amountTotal < clampUsed sub.amountUsed (-t.quota)) := by rwa [hused]
      simp only [if_true, postConsumeUserSubscriptionDelta, if_neg hid, if_neg hne, hsub, if_neg hroom]
      exact ⟨_, rfl⟩
    | false =>
      simp only [Bool.false_eq_true, if_false]
      split_ifs with hneg <;> exact ⟨_, quotaStatement_eq_ok.mpr ⟨by omega, rfl, rfl⟩⟩
  obtain ⟨d, hd⟩ := hfund
  have hadj : adjustMoney db t (-t.quota) none token = some (taskAdjustTokenQuota d t (-t.quota) token) := by
    simp only [adjustMoney, hd]
  refine ⟨_, ?_, adjustMoney_entries hcov hne hadj⟩
  simp only [refundMoney, if_neg hq, hadj, Option.map_some]

/-! ### The invariant -/

variable (row₀ : Task) (q : Int)

/-- Every copy is of this row, submitted after the cut-off; a live copy carries the charge. -/
structure CopyOk (t : Task) : Prop extends Carries row₀ q t where
  recent : taskRefundLegacyCutoff ≤ t.submitTime

theorem CopyOk.withQuota {row₀ : Task} {q : Int} (hok : CopyOk row₀ q t)
    (hterm : t.status.IsTerminal) (quota : Int) : CopyOk row₀ q { t with quota } :=
  ⟨hok.toCarries.withQuota hterm quota, hok.recent⟩

/-- `h` is about to refund the charge, and nobody else is billing. -/
def AboutToRefund (q : Int) (s : Sys) : Prop :=
  ∃ h role copy, s.handlers h = some ⟨role, copy, .billing .refund⟩ ∧ copy.status = .failure ∧
    copy.quota = q ∧ Alone s h

/-- Whoever is still billing has only a quota column to write. -/
def OnlyWriting (s : Sys) : Prop :=
  ∀ h hd, s.handlers h = some hd → hd.phase.Pending → ∃ quota, hd.phase = .writing quota

def OnlySettling (s : Sys) : Prop :=
  ∀ h hd, s.handlers h = some hd → hd.phase.Pending →
    hd.phase ≠ .billing .refund ∧ hd.copy.status.IsTerminal

structure Inv (s : Sys) : Prop where
  row : CopyOk row₀ q s.row
  copies : ∀ h hd, s.handlers h = some hd → CopyOk row₀ q hd.copy
  phase : (¬ s.row.status.IsTerminal ∧ entriesOn s.db.journal (fundingAccount row₀) = [] ∧ Quiet s) ∨
    (s.row.status = .failure ∧ ((entriesOn s.db.journal (fundingAccount row₀) = [] ∧
      AboutToRefund q s) ∨ (ReturnedOnce row₀ q s ∧ OnlyWriting s))) ∨
    (s.row.status = .success ∧ OnlySettling s)

def FailedIsRefunded (s : Sys) : Prop :=
  s.row.status = .failure → Quiet s → ReturnedOnce row₀ q s

theorem Inv.failedIsRefunded {row₀ : Task} {q : Int} {s : Sys} (h : Inv row₀ q s) : FailedIsRefunded row₀ q s := by
  intro hf hquiet
  rcases h.phase with ⟨hlive, -, -⟩ | ⟨-, ⟨-, hk, role, copy, hh, -⟩ | ⟨hret, -⟩⟩ | ⟨hs, -⟩
  · exact absurd (.inl hf) hlive
  · exact absurd trivial (hquiet hk _ hh)
  · exact hret
  · rw [hf] at hs
    cases hs

/-! ### Work from a live copy -/

section Work

variable {env : Env} {row₀ row : Task} {q : Int} {hd : Handler} {fault : Fault} {w : Work}
  {o : Outcome}

theorem work_copyOk (hcopy : CopyOk row₀ q hd.copy) (hlive : ¬ hd.copy.status.IsTerminal)
    (hw : w.Harmless) (ho : work env row hd fault w = some o) : CopyOk row₀ q o.copy ∧ o.copy.quota = q := by
  have hrecent := hcopy.recent
  have hlegacy : hd.copy.IsLegacy → hd.role = .sweeper → hd.copy.quota = 0 := by
    intro hl _
    have := hl.2
    omega
  obtain ⟨hcarries, hquota⟩ := work_carries hcopy.toCarries hlive hlegacy ho
  refine ⟨⟨hcarries, ?_⟩, hquota⟩
  rcases work_submitTime ho with hs | ⟨item, rfl, h0, hs⟩
  · rw [hs]
    exact hrecent
  · rw [hs]
    exact hw.resolve_left h0

theorem work_exclusive_of_harmless (hlive : ¬ hd.copy.status.IsTerminal) (hw : w.Harmless)
    (ho : work env row hd fault w = some o) : o.Exclusive := by
  by_cases hb : w.Bills
  · exact work_exclusive hlive hb ho
  cases w with
  | realtime answer =>
    have hnone := work_realtime ho
    refine ⟨fun _ => hnone, fun h => ?_, fun info h => ?_, fun _ hf _ => ?_⟩
    · rw [hnone] at h
      cases h
    · rw [hnone] at h
      cases h
    · simp only [work, Option.ite_none_right_eq_some, Option.some.injEq] at ho
      rw [← ho.2] at hf
      obtain ⟨info, rfl, hst⟩ := realtime_failure hlive hf
      exact absurd hst hw
  | video | suno | sweep => exact absurd trivial hb

end Work

/-! ### One step -/

section Step

variable {env : Env} {row₀ : Task} {q : Int} {s : Sys} {h : ℕ}

theorem Inv.setHandler {v : Option Handler} (hinv : Inv row₀ q s)
    (hold : ∀ hd, s.handlers h = some hd → hd.phase ≠ .billing .refund)
    (hnew : ∀ hd, v = some hd → CopyOk row₀ q hd.copy ∧ ¬ hd.phase.Pending) : Inv row₀ q (s.setHandler h v) := by
  have hidle : ∀ hd, v = some hd → ¬ hd.phase.Pending := fun hd hv => (hnew hd hv).2
  refine ⟨hinv.row, fun k hd hk => ?_, ?_⟩
  · rcases Cas.lookup_update hk with ⟨-, hv⟩ | ⟨-, hk⟩
    · exact (hnew hd hv).1
    · exact hinv.copies k hd hk
  rcases hinv.phase with ⟨hlive, he, hquiet⟩ | ⟨hf, ⟨he, k, role, copy, hk, hst, hq, hone⟩ | ⟨hr, hw⟩⟩ |
    ⟨hs, hset⟩
  · exact .inl ⟨hlive, he, hquiet.update hidle⟩
  · have hkh : k ≠ h := by
      rintro rfl
      exact hold _ hk rfl
    have hk' : (s.setHandler h v).handlers k = some ⟨role, copy, .billing .refund⟩ := by
      simp only [Sys.setHandler, update_of_ne hkh, hk]
    exact .inr (.inl ⟨hf, .inl ⟨he, k, role, copy, hk', hst, hq, hone.update hidle⟩⟩)
  · exact .inr (.inl ⟨hf, .inr ⟨hr, fun k hd hk hp =>
      hw k hd (Cas.busy_update hidle hk hp) hp⟩⟩)
  · exact .inr (.inr ⟨hs, fun k hd hk hp => hset k hd (Cas.busy_update hidle hk hp) hp⟩)

variable {copy : Task} {hd : Handler} {role : Role}

theorem Inv.toWorked {copy' : Task} {phase : Phase} (hinv : Inv row₀ q s)
    (hh : s.handlers h = some ⟨role, copy, phase⟩) (hp : phase ≠ .billing .refund)
    (hok : CopyOk row₀ q copy') : Inv row₀ q (s.setHandler h (some ⟨role, copy', .worked⟩)) := by
  refine hinv.setHandler (fun hd hh' => ?_) fun hd hv => ?_
  · rw [hh] at hh'
    obtain rfl := Option.some.inj hh'
    exact hp
  · obtain rfl := Option.some.inj hv
    exact ⟨hok, id⟩

theorem Inv.setRow {row' : Task} (hinv : Inv row₀ q s) (hterm : s.row.status.IsTerminal)
    (hst : row'.status = s.row.status) (hsame : row'.SameBilling s.row)
    (htime : row'.submitTime = s.row.submitTime) : Inv row₀ q { s with row := row' } := by
  refine ⟨⟨⟨hsame.trans hinv.row.same, fun hl => ?_⟩, htime ▸ hinv.row.recent⟩, hinv.copies, ?_⟩
  · exact absurd (hst ▸ hterm) hl
  · have hphase := hinv.phase
    rw [← hst] at hphase
    exact hphase

theorem Inv.terminal_of_pending (hinv : Inv row₀ q s) (hh : s.handlers h = some hd) (hp : hd.phase.Pending) :
    s.row.status.IsTerminal := by
  rcases hinv.phase with ⟨-, -, hquiet⟩ | ⟨hf, -⟩ | ⟨hs, -⟩
  · exact absurd hp (hquiet h hd hh)
  · exact .inl hf
  · exact .inr hs

/-- The handler whose guarded update goes through decides what becomes of the row. -/
theorem Inv.won {o : Outcome} (hq : q ≠ 0) (hinv : Inv row₀ q s) (hlive : ¬ s.row.status.IsTerminal)
    (hwon : o.won = true) (hrow : o.row = o.copy) (hok : CopyOk row₀ q o.copy ∧ o.copy.quota = q)
    (hx : o.Exclusive) : Inv row₀ q (s.apply h hd o) := by
  obtain ⟨-, he, hquiet⟩ | ⟨hf, -⟩ | ⟨hs, -⟩ := hinv.phase
  rotate_left
  · exact absurd (.inl hf) hlive
  · exact absurd (.inr hs) hlive
  have hpending : ∀ k hd', (s.apply h hd o).handlers k = some hd' → hd'.phase.Pending →
      k = h ∧ hd' = ⟨hd.role, o.copy, phaseOf o.bill⟩ := by
    intro k hd' hk hp
    rcases Cas.lookup_update hk with ⟨rfl, hv⟩ | ⟨-, hk⟩
    · exact ⟨rfl, (Option.some.inj hv).symm⟩
    · exact absurd hp (hquiet k hd' hk)
  refine ⟨by simpa only [Sys.apply, hrow] using hok.1, fun k hd' hk => ?_, ?_⟩
  · rcases Cas.lookup_update hk with ⟨-, hv⟩ | ⟨-, hk⟩
    · obtain rfl := Option.some.inj hv
      exact hok.1
    · exact hinv.copies k hd' hk
  have hst : (s.apply h hd o).row.status = o.copy.status := by rw [← hrow]; rfl
  rw [hst]
  by_cases hterm : o.copy.status.IsTerminal
  swap
  · refine .inl ⟨hterm, he, fun k hd' hk hp => ?_⟩
    obtain ⟨-, rfl⟩ := hpending k hd' hk hp
    cases hb : o.bill with
    | none =>
      rw [hb] at hp
      exact hp
    | some b =>
      cases b with
      | refund => exact hterm (.inl (hx.refund hb))
      | settle info => exact hterm (.inr (hx.settle info hb))
  rcases hterm with hf | hs
  · have hbill := hx.failed hwon hf (hok.2 ▸ hq)
    have hself : (s.apply h hd o).handlers h = some ⟨hd.role, o.copy, .billing .refund⟩ := by
      simp only [Sys.apply, update_self, hbill, phaseOf]
    exact .inr (.inl ⟨hf, .inl ⟨he, h, _, _, hself, hf, hok.2, fun k hd' hk hp => (hpending k hd' hk hp).1⟩⟩)
  · refine .inr (.inr ⟨hs, fun k hd' hk hp => ?_⟩)
    obtain ⟨-, rfl⟩ := hpending k hd' hk hp
    refine ⟨fun hb => ?_, .inr hs⟩
    have hbill : o.bill = some .refund := by
      cases hb' : o.bill with
      | none => simp [hb', phaseOf] at hb
      | some b => simpa [hb', phaseOf] using hb
    have hf := hx.refund hbill
    rw [hs] at hf
    cases hf

section

variable (hinv : Inv row₀ q s)

include hinv

theorem Inv.lost {o : Outcome} (hh : s.handlers h = some hd)
    (hidle : hd.phase = .ready ∨ hd.phase = .worked) (hrow : o.row = s.row) (hok : CopyOk row₀ q o.copy)
    (hbill : o.bill = none) : Inv row₀ q (s.apply h hd o) := by
  obtain ⟨copy, row, won, bill⟩ := o
  dsimp only at hrow hok hbill
  subst hrow hbill
  have hset : Inv row₀ q (s.setHandler h (some ⟨hd.role, copy, .worked⟩)) := by
    refine hinv.toWorked hh (fun hp => ?_) hok
    rcases hidle with hi | hi <;> rw [hi] at hp <;> cases hp
  exact ⟨hset.row, hset.copies, hset.phase⟩

theorem Inv.refunder (hh : s.handlers h = some ⟨role, copy, .billing .refund⟩) :
    s.row.status = .failure ∧ entriesOn s.db.journal (fundingAccount row₀) = [] ∧
      copy.status = .failure ∧ copy.quota = q ∧ Alone s h := by
  rcases hinv.phase with ⟨-, -, hquiet⟩ | ⟨hf, ⟨he, k, role', copy', hk, hst, hq, hone⟩ | ⟨-, hw⟩⟩ |
    ⟨-, hset⟩
  · exact absurd trivial (hquiet h _ hh)
  · obtain rfl := hone h _ hh trivial
    rw [hk] at hh
    obtain ⟨rfl, rfl, -⟩ := Handler.mk.inj (Option.some.inj hh)
    exact ⟨hf, he, hst, hq, hone⟩
  · obtain ⟨quota, hp⟩ := hw h _ hh trivial
    cases hp
  · exact absurd rfl (hset h _ hh trivial).1

variable {info : TaskInfo}

theorem Inv.settler (hh : s.handlers h = some ⟨role, copy, .billing (.settle info)⟩) :
    s.row.status = .success ∧ OnlySettling s := by
  rcases hinv.phase with ⟨-, -, hquiet⟩ | ⟨-, ⟨-, k, role', copy', hk, -, -, hone⟩ | ⟨-, hw⟩⟩ | hset
  · exact absurd trivial (hquiet h _ hh)
  · obtain rfl := hone h _ hh trivial
    rw [hk] at hh
    cases hh
  · obtain ⟨quota, hp⟩ := hw h _ hh trivial
    cases hp
  · exact hset

theorem Inv.refunded (hh : s.handlers h = some ⟨role, copy, .billing .refund⟩)
    (hentry : entriesOn db.journal (fundingAccount copy) =
      entriesOn s.db.journal (fundingAccount copy) ++ [⟨fundingAccount copy, -copy.quota, -copy.quota⟩]) :
    Inv row₀ q ({ s with db }.setHandler h (some ⟨role, { copy with quota := 0 }, .writing 0⟩)) := by
  obtain ⟨hf, he, hst, hq, hone⟩ := hinv.refunder hh
  have hok := hinv.copies h _ hh
  refine ⟨hinv.row, fun k hd hk => ?_, .inr (.inl ⟨hf, .inr ⟨?_, fun k hd hk hp => ?_⟩⟩)⟩
  · rcases Cas.lookup_update hk with ⟨-, hv⟩ | ⟨-, hk⟩
    · obtain rfl := Option.some.inj hv
      exact hok.withQuota (.inl hst) 0
    · exact hinv.copies k hd hk
  · rw [fundingAccount_congr hok.same, he, hq, List.nil_append] at hentry
    exact hentry
  · rcases Cas.lookup_update hk with ⟨-, hv⟩ | ⟨hkh, hk⟩
    · obtain rfl := Option.some.inj hv
      exact ⟨0, rfl⟩
    · exact absurd (hone k hd hk hp) hkh

theorem Inv.settled {quota : Int} (hh : s.handlers h = some ⟨role, copy, .billing (.settle info)⟩) :
    Inv row₀ q ({ s with db }.setHandler h (some ⟨role, { copy with quota }, .writing quota⟩)) := by
  obtain ⟨hs, hset⟩ := hinv.settler hh
  have hok := hinv.copies h _ hh
  have hterm : copy.status.IsTerminal := (hset h _ hh trivial).2
  refine ⟨hinv.row, fun k hd hk => ?_, .inr (.inr ⟨hs, fun k hd hk hp => ?_⟩)⟩
  · rcases Cas.lookup_update hk with ⟨-, hv⟩ | ⟨-, hk⟩
    · obtain rfl := Option.some.inj hv
      exact hok.withQuota hterm quota
    · exact hinv.copies k hd hk
  · rcases Cas.lookup_update hk with ⟨-, hv⟩ | ⟨-, hk⟩
    · obtain rfl := Option.some.inj hv
      exact ⟨nofun, hterm⟩
    · exact hset k hd hk hp

end

theorem Inv.money {bill : Bill} {adaptorQuota : Int} {fault : Fault} {token : TokenAnswer} (hq : q ≠ 0)
    (hinv : Inv row₀ q s) (hh : s.handlers h = some ⟨role, copy, .billing bill⟩)
    (hcond : Refunding s (.money h adaptorQuota fault token)) :
    (∀ db quota, billMoney env s.db copy adaptorQuota fault token bill = some (db, quota) →
      Inv row₀ q ({ s with db }.setHandler h (some ⟨role, { copy with quota }, .writing quota⟩))) ∧
    (billMoney env s.db copy adaptorQuota fault token bill = none →
      Inv row₀ q (s.setHandler h (some ⟨role, copy, .worked⟩))) := by
  cases bill with
  | refund =>
    have hall : s.handlerAll h fun hd =>
      hd.phase = .billing .refund → fault = none ∧ RefundAccepted s.db hd.copy := hcond
    obtain ⟨rfl, hacc⟩ := of_decide_eq_true (hall.of_eq hh) rfl
    have hcharge : copy.quota ≠ 0 := by
      rw [(hinv.refunder hh).2.2.2.1]
      exact hq
    obtain ⟨db', hmoney, hentry⟩ := refundMoney_accepted hcharge hacc token
    constructor
    · intro db quota hm
      rw [billMoney, hmoney] at hm
      obtain ⟨rfl, rfl⟩ := Prod.mk.inj (Option.some.inj hm)
      exact hinv.refunded hh hentry
    · intro hm
      rw [billMoney, hmoney] at hm
      cases hm
  | settle info =>
    have hok := hinv.copies h _ hh
    exact ⟨fun db quota _ => hinv.settled hh, fun _ => hinv.toWorked hh nofun hok⟩

theorem inv_stepped {s' : Sys} {a : Action} (hq : q ≠ 0) (hinv : Inv row₀ q s)
    (hcond : Refunding s a) (hstep : Stepped env s a s') : Inv row₀ q s' := by
  cases hstep with
  | idle => exact hinv
  | read hfree hread =>
    refine hinv.setHandler (fun hd hh => ?_) fun hd hv => ?_
    · rw [hfree] at hh
      cases hh
    · obtain rfl := Option.some.inj hv
      exact ⟨hinv.row, id⟩
  | work hh ho =>
    rename_i h hd w fault o
    have hlive : ¬ hd.copy.status.IsTerminal := by simpa using hcond.1.of_eq hh
    have hok := work_copyOk (hinv.copies h hd hh) hlive hcond.2 ho
    have hx := work_exclusive_of_harmless hlive hcond.2 ho
    have hg := work_guarded ho
    cases hwon : o.won with
    | false => exact hinv.lost hh (work_phase ho) (hg.lost hwon) hok.1 (hx.lost hwon)
    | true =>
      obtain ⟨hst, hrow⟩ := hg.won hwon
      exact hinv.won hq (hst ▸ hlive) hwon hrow hok hx
  | bulk hh hb =>
    exact hinv.setRow (.inl hcond) (Eq.symm hcond) ⟨rfl, rfl, rfl, rfl, rfl, rfl, rfl⟩ rfl
  | refused hh hm => exact (hinv.money hq hh hcond).2 hm
  | paid hh hm => exact (hinv.money hq hh hcond).1 _ _ hm
  | written hh =>
    rename_i h role copy quota
    have hok := hinv.copies h _ hh
    have hterm := hinv.terminal_of_pending hh trivial
    have hrow : Inv row₀ q { s with row := s.row.updateQuota quota } :=
      hinv.setRow hterm rfl ⟨rfl, rfl, rfl, rfl, rfl, rfl, rfl⟩ rfl
    exact hrow.toWorked hh nofun hok
  | unwritten hh =>
    have hok := hinv.copies _ _ hh
    exact hinv.toWorked hh nofun hok
  | finish hh hp =>
    refine hinv.setHandler (fun hd' hh' hr => ?_) fun hd' hv => by cases hv
    rw [hh] at hh'
    obtain rfl := Option.some.inj hh'
    rw [hr] at hp
    rcases hp with hp | hp <;> cases hp
  | others db => exact ⟨hinv.row, hinv.copies, hinv.phase⟩

end Step

/-- **Refund of failures**: in every interleaving of pollers, sweepers and fetches whose steps keep to
`Refunding`, a charged task that is `FAILURE` with nobody billing has had exactly its charge returned
to its funding source, once. -/
theorem failed_is_refunded {env : Env} {row₀ : Task} {db : DB} {q : Int} {as : List Action}
    (hq : q ≠ 0) (hquota : row₀.quota = q) (hlive : ¬ row₀.status.IsTerminal)
    (hrecent : taskRefundLegacyCutoff ≤ row₀.submitTime)
    (hjournal : entriesOn db.journal (fundingAccount row₀) = [])
    (hcond : Along (step env) Refunding (Sys.start row₀ db) as) :
    FailedIsRefunded row₀ q (run (step env) (Sys.start row₀ db) as) := by
  have hstart : Inv row₀ q (Sys.start row₀ db) := by
    have hnone : ∀ h hd, (Sys.start row₀ db).handlers h ≠ some hd := by
      intro h hd hh
      simp [Sys.start] at hh
    exact ⟨⟨⟨.refl _, fun _ => hquota⟩, hrecent⟩, fun h hd hh => absurd hh (hnone h hd),
      .inl ⟨hlive, hjournal, fun h hd hh => absurd hh (hnone h hd)⟩⟩
  exact (run_inv (fun s a hi ha => inv_stepped hq hi ha (stepped env s a)) hstart
    hcond).failedIsRefunded

/-- A poller and a sweeper both see the task fail while a user fetches it. -/
theorem failed_is_refunded_contended :
    let s := run (step exampleEnv) (Sys.start exampleTask exampleDB)
      [.read 0 .poller 0, .read 1 .sweeper 1790000000, .read 2 .user 0,
        .work 2 (.realtime (some ⟨"IN_PROGRESS", "", "", "40%", 0⟩)) none,
        .work 0 (.video (reports "FAILURE") 5) none, .work 1 (.sweep 7 "timeout") none,
        .read 3 .sweeper 1790000000, .work 3 (.sweep 8 "timeout") none,
        .money 3 0 none ⟨false, none⟩, .write 3 none]
    s.row.status = .failure ∧ s.row.quota = 0 ∧ FailedIsRefunded exampleTask 100 s :=
  ⟨by decide, by decide,
    failed_is_refunded (by decide) rfl (by decide) (by decide) rfl (by decide)⟩

theorem quiet_of_setHandler_none {s : Sys} {h : ℕ} (hs : ∀ k, k ≠ h → s.handlers k = none) :
    Quiet (s.setHandler h none) := by
  have halone : Alone s h := by
    intro k hd hk _
    by_contra hkh
    rw [hs k hkh] at hk
    cases hk
  exact halone.idle_update fun hd hv => by cases hv

/-- The channel of the task is missing: the bulk update fails the task and nobody refunds it.  A user
who is told `FAILURE` by the upstream before any poller has the same effect. -/
theorem failed_not_refunded :
    (let s := run (step exampleEnv) (Sys.start exampleTask exampleDB)
      [.read 0 .poller 0, .bulkFail 0 (some "Failed to get channel info, channel ID: 3"), .finish 0]
    s.row.status = .failure ∧ Quiet s ∧ s.db.journal = []) ∧
    (let s := run (step exampleEnv) (Sys.start exampleTask exampleDB)
      [.read 0 .user 0, .work 0 (.realtime (some ⟨"FAILURE", "rejected", "", "100%", 0⟩)) none,
        .finish 0]
    s.row.status = .failure ∧ Quiet s ∧ s.db.journal = []) := by
  refine ⟨⟨by decide, ?_, rfl⟩, ⟨by decide, ?_, by decide⟩⟩
  · exact quiet_of_setHandler_none fun k hk => update_of_ne hk _ _
  · exact quiet_of_setHandler_none fun k hk =>
      (update_of_ne hk _ _).trans (update_of_ne hk _ _)

end WynthApi.Polling
