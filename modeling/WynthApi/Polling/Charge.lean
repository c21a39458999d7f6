import WynthApi.Billing.Conservation
import WynthApi.Polling.Submit
import WynthApi.Polling.System

/-!
# The quota column is what was taken

The invariant `Balanced` follows the quota that a refund gives back: while the row is live nobody bills, so the column
and the journal both stand at the submission's quota; once it is terminal at most one handler bills, and between its
money step and its write the journal is ahead of the column.
-/

namespace WynthApi.Polling

open Store StepSys Billing Option Function

/-! ### The difference a billing call asks for -/

variable (env : Env)

/-- What a billing call moves, `none` where it returns early. -/
def billDelta (t : Task) (adaptorQuota : Int) : Bill → Option Int
  | .refund => if t.quota = 0 then none else some (-t.quota)
  | .settle info => (settleTarget env t info adaptorQuota).bind fun actual =>
      if actual ≤ 0 ∨ actual - t.quota = 0 then none else some (actual - t.quota)

variable {t : Task} {adaptorQuota delta : Int} {bill : Bill}

theorem billDelta_ne_zero {env : Env} (h : billDelta env t adaptorQuota bill = some delta) : delta ≠ 0 := by
  cases bill with
  | refund =>
    simp only [billDelta] at h
    split_ifs at h with hq
    have hd : -t.quota = delta := some.inj h
    omega
  | settle info =>
    obtain ⟨actual, -, h⟩ := bind_eq_some_iff.mp h
    split_ifs at h with hq
    have hd : actual - t.quota = delta := some.inj h
    omega

theorem billMoney_eq (db : DB) (t : Task) (adaptorQuota : Int) (fault : Fault)
    (token : TokenAnswer) (bill : Bill) : billMoney env db t adaptorQuota fault token bill =
      (billDelta env t adaptorQuota bill).bind fun delta =>
        (adjustMoney db t delta fault token).map (·, t.quota + delta) := by
  cases bill with
  | refund =>
    simp only [billMoney, refundMoney, billDelta]
    split_ifs
    · rfl
    · simp only [bind_some, add_neg_cancel]
  | settle info =>
    simp only [billMoney, billDelta]
    cases settleTarget env t info adaptorQuota with
    | none => rfl
    | some actual =>
      simp only [bind_some, recalculateMoney]
      split_ifs
      · rfl
      · simp only [bind_some, add_sub_cancel]

variable {db : DB} {fault : Fault}

theorem adjustMoney_taken {db' : DB} {a : TokenAnswer}
    (hcov : Covers db t delta) (hdelta : delta ≠ 0) (h : adjustMoney db t delta fault a = some db') :
    taken db'.journal (fundingAccount t) = taken db.journal (fundingAccount t) + delta := by
  rw [taken_eq_sum_entriesOn, taken_eq_sum_entriesOn, adjustMoney_entries hcov hdelta h]
  simp

/-! ### The condition on the steps -/

def MoneyCovered (db : DB) (adaptorQuota : Int) (hd : Handler) : Prop :=
  match hd.phase with
  | .billing bill => ∀ delta ∈ billDelta env hd.copy adaptorQuota bill, Covers db hd.copy delta
  | _ => True

instance (db : DB) (t : Task) (delta : Int) : Decidable (Covers db t delta) :=
  decidable_of_iff (taskIsSubscription t = true →
      (db.subs.lookup t.privateData.subscriptionId).all
        (fun sub => decide (0 ≤ sub.amountUsed + delta)) = true) <| by
    simp only [Covers, Option.all_eq_true, decide_eq_true_eq]

instance (env : Env) (db : DB) (adaptorQuota : Int) (hd : Handler) :
    Decidable (MoneyCovered env db adaptorQuota hd) := by
  unfold MoneyCovered
  split <;> infer_instance

/-- A handler that may act: its copy is live, and a sweeper has no charged legacy task. -/
def MayWork (hd : Handler) : Prop :=
  ¬ hd.copy.status.IsTerminal ∧ (hd.copy.IsLegacy → hd.role = .sweeper → hd.copy.quota = 0)
  deriving Decidable

/-- The runs in which the column follows the money: work starts from live copies, no charged legacy
task is swept, no subscription is clamped at zero, and the quota column can be written. -/
def KeepsCharge (s : Sys) : Action → Prop
  | .work h _ _ => s.handlerAll h fun hd => MayWork hd
  | .money h adaptorQuota _ _ => s.handlerAll h fun hd => MoneyCovered env s.db adaptorQuota hd
  | .write _ fault => fault = none
  | _ => True

instance (env : Env) (s : Sys) (a : Action) : Decidable (KeepsCharge env s a) := by
  unfold KeepsCharge
  split <;> infer_instance

/-! ### The invariant -/

/-- The column and the account `a` agree, up to one handler that has moved the money and is about to
write the column. -/
def Agrees (a : Account) (s : Sys) : Prop :=
  (Quiet s ∧ taken s.db.journal a = s.row.quota) ∨
  (∃ h role copy bill, s.handlers h = some ⟨role, copy, .billing bill⟩ ∧ Alone s h ∧
    copy.status.IsTerminal ∧ copy.quota = s.row.quota ∧ taken s.db.journal a = s.row.quota) ∨
  (∃ h role copy quota, s.handlers h = some ⟨role, copy, .writing quota⟩ ∧ Alone s h ∧
    taken s.db.journal a = quota)

structure Balanced (row₀ : Task) (q : Int) (s : Sys) : Prop where
  row : Carries row₀ q s.row
  copies : ∀ h hd, s.handlers h = some hd → Carries row₀ q hd.copy
  live : ¬ s.row.status.IsTerminal → Quiet s
  agrees : Agrees (fundingAccount row₀) s

section Balanced

variable {env : Env} {row₀ : Task} {q : Int} {s : Sys} {h : ℕ} (hinv : Balanced row₀ q s)

include hinv in
theorem Balanced.terminal {hd : Handler} (hh : s.handlers h = some hd)
    (hp : hd.phase.Pending) : s.row.status.IsTerminal := by
  by_contra hlive
  exact hinv.live hlive h hd hh hp

variable {role : Role} {copy : Task}

include hinv in
theorem Balanced.biller (hh : s.handlers h = some ⟨role, copy, .billing bill⟩) :
    Alone s h ∧ copy.status.IsTerminal ∧ copy.quota = s.row.quota ∧
      taken s.db.journal (fundingAccount row₀) = s.row.quota := by
  rcases hinv.agrees with ⟨hquiet, -⟩ | ⟨k, role', copy', bill', hk, halone, hterm, hq, ht⟩ |
    ⟨k, role', copy', quota, hk, halone, -⟩
  · exact absurd trivial (hquiet h _ hh)
  · obtain rfl := halone h _ hh trivial
    rw [hk] at hh
    obtain ⟨rfl, rfl, -⟩ := Handler.mk.inj (some.inj hh)
    exact ⟨halone, hterm, hq, ht⟩
  · obtain rfl := halone h _ hh trivial
    rw [hk] at hh
    cases hh

variable {quota : Int}

include hinv in
theorem Balanced.writer (hh : s.handlers h = some ⟨role, copy, .writing quota⟩) :
    Alone s h ∧ taken s.db.journal (fundingAccount row₀) = quota := by
  rcases hinv.agrees with ⟨hquiet, -⟩ | ⟨k, role', copy', bill', hk, halone, -⟩ |
    ⟨k, role', copy', quota', hk, halone, ht⟩
  · exact absurd trivial (hquiet h _ hh)
  · obtain rfl := halone h _ hh trivial
    rw [hk] at hh
    cases hh
  · obtain rfl := halone h _ hh trivial
    rw [hk] at hh
    obtain ⟨-, -, hphase⟩ := Handler.mk.inj (some.inj hh)
    obtain rfl := Phase.writing.inj hphase
    exact ⟨halone, ht⟩

variable {v : Option Handler}

include hinv in
theorem Balanced.copies_setHandler (hnew : ∀ hd, v = some hd → Carries row₀ q hd.copy) :
    ∀ k hd, (s.setHandler h v).handlers k = some hd → Carries row₀ q hd.copy := by
  intro k hd hk
  rcases Cas.lookup_update hk with ⟨-, hv⟩ | ⟨-, hk⟩
  · exact hnew hd hv
  · exact hinv.copies k hd hk

include hinv in
theorem Balanced.setHandler (hold : ∀ hd, s.handlers h = some hd → ¬ hd.phase.Pending)
    (hnew : ∀ hd, v = some hd → Carries row₀ q hd.copy ∧ ¬ hd.phase.Pending) : Balanced row₀ q (s.setHandler h v) := by
  have hidle : ∀ hd, v = some hd → ¬ hd.phase.Pending := fun hd hv => (hnew hd hv).2
  have hother : ∀ {k : ℕ} {hd : Handler}, s.handlers k = some hd → hd.phase.Pending →
      (s.setHandler h v).handlers k = some hd := by
    intro k hd hk hp
    have hkh : k ≠ h := by
      rintro rfl
      exact hold hd hk hp
    simp only [Sys.setHandler, update_of_ne hkh, hk]
  refine ⟨hinv.row, hinv.copies_setHandler fun hd hv => (hnew hd hv).1, fun hlive => (hinv.live hlive).update hidle, ?_⟩
  rcases hinv.agrees with ⟨hquiet, ht⟩ | ⟨k, role, copy, bill, hk, halone, hrest⟩ |
    ⟨k, role, copy, quota, hk, halone, ht⟩
  · exact .inl ⟨hquiet.update hidle, ht⟩
  · exact .inr (.inl ⟨k, role, copy, bill, hother hk trivial, halone.update hidle, hrest⟩)
  · exact .inr (.inr ⟨k, role, copy, quota, hother hk trivial, halone.update hidle, ht⟩)

/-- Work from a live copy: a lost update changes nothing but the copy; one that goes through writes
the same quota, and may leave this handler as the only one that bills. -/
theorem Balanced.work {hd : Handler} {w : Work} {fault : Fault} {o : Outcome}
    (hinv : Balanced row₀ q s) (hh : s.handlers h = some hd) (hmay : MayWork hd)
    (ho : work env s.row hd fault w = some o) : Balanced row₀ q (s.apply h hd o) := by
  obtain ⟨hlive, hlegacy⟩ := hmay
  obtain ⟨hcarries, hquota⟩ := work_carries (hinv.copies h hd hh) hlive hlegacy ho
  have hg := work_guarded ho
  have hbill : ∀ b, o.bill = some b → o.won = true ∧ o.copy.status.IsTerminal :=
    fun b hb => work_bill hlive ho hb
  have hidle : ¬ hd.phase.Pending := not_pending_of_idle (work_phase ho)
  obtain ⟨copy, row, won, bill⟩ := o
  dsimp only at hcarries hquota hg hbill ⊢
  have hnew : ∀ hd', some (⟨hd.role, copy, phaseOf bill⟩ : Handler) = some hd' → Carries row₀ q hd'.copy := by
    intro hd' hv
    obtain rfl := some.inj hv
    exact hcarries
  cases hwon : won with
  | false =>
    have hnone : bill = none := by
      cases bill with
      | none => rfl
      | some b => exact absurd ((hbill b rfl).1.symm.trans hwon) (by simp)
    have hrow := hg.lost hwon
    dsimp only at hrow
    subst hnone hrow
    have hset : Balanced row₀ q (s.setHandler h (some ⟨hd.role, copy, .worked⟩)) := by
      refine hinv.setHandler (fun hd' hh' => ?_) fun hd' hv => ⟨hnew hd' hv, ?_⟩
      · rw [hh] at hh'
        obtain rfl := some.inj hh'
        exact hidle
      · obtain rfl := some.inj hv
        exact id
    exact ⟨hset.row, hset.copies, hset.live, hset.agrees⟩
  | true =>
    obtain ⟨hst, hrow⟩ := hg.won hwon
    dsimp only at hst hrow
    subst hrow
    have hquiet := hinv.live (hst ▸ hlive)
    have ht : taken s.db.journal (fundingAccount row₀) = row.quota := by
      rcases hinv.agrees with ⟨-, ht⟩ | ⟨k, _, _, _, hk, -⟩ | ⟨k, _, _, _, hk, -⟩
      · rw [ht, hquota, hinv.row.charge (hst ▸ hlive)]
      · exact absurd trivial (hquiet k _ hk)
      · exact absurd trivial (hquiet k _ hk)
    have halone : Alone (s.setHandler h (some ⟨hd.role, row, phaseOf bill⟩)) h := hquiet.solo.update_self
    refine ⟨hcarries, hinv.copies_setHandler hnew, fun hl => ?_, ?_⟩
    · cases bill with
      | some b => exact absurd (hbill b rfl).2 hl
      | none =>
        refine hquiet.update fun hd' hv => ?_
        obtain rfl := some.inj hv
        exact id
    · cases bill with
      | none =>
        refine .inl ⟨hquiet.update fun hd' hv => ?_, ht⟩
        obtain rfl := some.inj hv
        exact id
      | some b =>
        exact .inr (.inl ⟨h, hd.role, row, b, update_self _ _ _, halone, (hbill b rfl).2, rfl, ht⟩)

include hinv in
theorem Balanced.paid
    {token : TokenAnswer} (hh : s.handlers h = some ⟨role, copy, .billing bill⟩)
    (hcov : MoneyCovered env s.db adaptorQuota ⟨role, copy, .billing bill⟩)
    (hm : billMoney env s.db copy adaptorQuota fault token bill = some (db, quota)) :
    Balanced row₀ q ({ s with db }.setHandler h (some ⟨role, { copy with quota }, .writing quota⟩)) := by
  obtain ⟨halone, hterm, hq, ht⟩ := hinv.biller hh
  have hcarries := hinv.copies h _ hh
  rw [billMoney_eq] at hm
  obtain ⟨delta, hdelta, hm⟩ := bind_eq_some_iff.mp hm
  obtain ⟨db', hadj, hpair⟩ := map_eq_some_iff.mp hm
  obtain ⟨rfl, rfl⟩ := Prod.mk.inj hpair
  have hnet := adjustMoney_taken (hcov delta hdelta) (billDelta_ne_zero hdelta) hadj
  rw [fundingAccount_congr hcarries.same, ht, ← hq] at hnet
  refine ⟨hinv.row, fun k hd hk => ?_, fun hl => absurd (hinv.terminal hh trivial) hl, ?_⟩
  · rcases Cas.lookup_update hk with ⟨-, hv⟩ | ⟨-, hk⟩
    · obtain rfl := some.inj hv
      exact hcarries.withQuota hterm _
    · exact hinv.copies k hd hk
  · exact .inr (.inr ⟨h, role, _, _, update_self _ _ _, halone.update_self, hnet⟩)

theorem balanced_stepped {s' : Sys} {a : Action} (hinv : Balanced row₀ q s)
    (hcond : KeepsCharge env s a) (hstep : Stepped env s a s') : Balanced row₀ q s' := by
  cases hstep with
  | idle => exact hinv
  | read hfree hread =>
    refine hinv.setHandler (fun hd hh => ?_) fun hd hv => ?_
    · rw [hfree] at hh
      cases hh
    · obtain rfl := some.inj hv
      exact ⟨hinv.row, id⟩
  | work hh ho =>
    have hall : s.handlerAll _ fun hd => MayWork hd := hcond
    exact hinv.work hh (of_decide_eq_true (hall.of_eq hh)) ho
  | bulk hh hb =>
    have hterm : (TaskStatus.failure).IsTerminal := .inl rfl
    rename_i h hd failReason
    have hrow : (s.row.bulkFail failReason).SameBilling s.row := ⟨rfl, rfl, rfl, rfl, rfl, rfl, rfl⟩
    have hsame := hrow.trans hinv.row.same
    exact ⟨⟨hsame, fun hl => absurd hterm hl⟩, hinv.copies, fun hl => absurd hterm hl, hinv.agrees⟩
  | refused hh hm =>
    rename_i h role copy bill adaptorQuota fault token
    obtain ⟨halone, -, -, ht⟩ := hinv.biller hh
    have hcarries := hinv.copies h _ hh
    have hquiet : Quiet (s.setHandler h (some ⟨role, copy, .worked⟩)) := by
      refine halone.idle_update fun hd hv => ?_
      obtain rfl := some.inj hv
      exact id
    refine ⟨hinv.row, hinv.copies_setHandler fun hd hv => ?_, fun _ => hquiet, .inl ⟨hquiet, ht⟩⟩
    obtain rfl := some.inj hv
    exact hcarries
  | paid hh hm =>
    have hall : s.handlerAll _ fun hd => MoneyCovered env s.db _ hd := hcond
    exact hinv.paid hh (of_decide_eq_true (hall.of_eq hh)) hm
  | written hh =>
    rename_i h role copy quota
    obtain ⟨halone, ht⟩ := hinv.writer hh
    have hcarries := hinv.copies h _ hh
    have hterm := hinv.terminal hh trivial
    have hquiet : Quiet ({ s with row := s.row.updateQuota quota }.setHandler h (some ⟨role, copy, .worked⟩)) := by
      refine halone.idle_update fun hd hv => ?_
      obtain rfl := some.inj hv
      exact id
    refine ⟨hinv.row.withQuota hterm quota, fun k hd hk => ?_, fun _ => hquiet, .inl ⟨hquiet, ht⟩⟩
    refine hinv.copies_setHandler (fun hd hv => ?_) k hd hk
    obtain rfl := some.inj hv
    exact hcarries
  | unwritten hh => cases hcond
  | finish hh hp =>
    refine hinv.setHandler (fun hd' hh' => ?_) fun hd' hv => by cases hv
    rw [hh] at hh'
    obtain rfl := some.inj hh'
    exact not_pending_of_idle hp
  | others db => exact ⟨hinv.row, hinv.copies, hinv.live, hinv.agrees⟩

end Balanced

def NoneWriting (s : Sys) : Prop :=
  ∀ h hd quota, s.handlers h = some hd → hd.phase ≠ .writing quota

def ChargeAgrees (s : Sys) : Prop :=
  NoneWriting s → taken s.db.journal (fundingAccount s.row) = s.row.quota

theorem Balanced.chargeAgrees {row₀ : Task} {q : Int} {s : Sys} (hinv : Balanced row₀ q s) : ChargeAgrees s := by
  intro hnone
  rw [fundingAccount_congr hinv.row.same]
  rcases hinv.agrees with ⟨-, ht⟩ | ⟨k, _, _, _, -, -, -, -, ht⟩ | ⟨k, _, _, quota, hk, -⟩
  · exact ht
  · exact ht
  · exact absurd rfl (hnone k _ quota hk)

/-- **Charge**: for every session `NewBillingSession` returns and every final quota whose settle the source
accepts, in every run on the new row that keeps to `KeepsCharge` the net amount taken from the funding
source is the quota in the row. -/
theorem charge_agrees {cfg : BillingConfig} {senv : SessionEnv} {info : RelayInfo}
    {db db₁ db₂ db₃ : DB} {preConsumed : Int} {sess : BillingSession} {sub : Submission}
    {result : TaskSubmitResult} {fundingFault tokenFault insertFault : Fault} {row : Task} {env : Env}
    {as : List Action} (hclean : Clean db info.requestId)
    (hwallet : senv.wallet.rollbackFault = none) (hsub : senv.subscription.rollbackFault = none)
    (hdup : senv.subscription.tx.dup = none) (hkeys : ∀ i ∈ db₁.subs, 0 < i)
    (hopen : newBillingSession cfg senv (some info) db preConsumed = (db₁, .ok sess))
    (hothers : db₂.journal = db₁.journal)
    (hsettle : SettleAccepted db₂ (result.quota - sess.preConsumedQuota) fundingFault sess.funding)
    (hrow : relayTask sub sess db₂ result fundingFault tokenFault insertFault = (db₃, some row))
    (hcond : Along (step env) (KeepsCharge env) (Sys.start row db₃) as) :
    ChargeAgrees (run (step env) (Sys.start row db₃) as) := by
  have hopened := newBillingSession_opened hclean hwallet hsub hdup hopen
  have hkey : KeyedSource sess.funding := by
    intro f hf
    exact hkeys _ (AList.lookup_isSome.mp (hopened.stored f hf))
  have hagrees := (relayTask_agrees_iff hopened hkey hothers hrow).mpr hsettle
  have hnone : ∀ h hd, (Sys.start row db₃).handlers h ≠ some hd := by
    intro h hd hh
    simp [Sys.start] at hh
  have hquiet : Quiet (Sys.start row db₃) := fun h hd hh => absurd hh (hnone h hd)
  have hstart : Balanced row row.quota (Sys.start row db₃) :=
    ⟨⟨.refl _, fun _ => rfl⟩, fun h hd hh => absurd hh (hnone h hd), fun _ => hquiet,
      .inl ⟨hquiet, hagrees⟩⟩
  exact (run_inv (fun s a hi ha => balanced_stepped hi ha (stepped env s a)) hstart
    hcond).chargeAgrees

/-! ### Two submissions -/

def exampleSubmission : Submission :=
  { id := 1, publicTaskID := "task_a", usingGroup := "default", channelId := 3
    action := "generate", key := "", upstreamModelName := "m"
    billingContext := ⟨0, 1, 1, ∅, "m", false⟩, now := 1780000000 }

def exampleResult : TaskSubmitResult := ⟨"u", "", .video "24", 150⟩

def exampleRow : Task :=
  { id := 1, taskID := "task_a", platform := .video "24", userId := 1, group := "default"
    channelId := 3, quota := 150, action := "generate", status := .notStart, failReason := ""
    submitTime := 1780000000, startTime := 0, finishTime := 0, progress := "0%"
    properties := ⟨"m", "m"⟩
    privateData := ⟨"", "u", "", some .subscription, 7, 2, some ⟨0, 1, 1, ∅, "m", false⟩⟩
    data := "" }

variable (used : Int)

def openedOn : DB × Except NewAPIError BillingSession :=
  newBillingSession Billing.exampleConfig Billing.exampleEnv
    (some { Billing.exampleInfo with forcePreConsume := true })
    { Billing.exampleDB with subs := AList.singleton 7 ⟨1, 1, 1000, used, 0, 10, .active, 0, 0⟩ } 100

def sessionOn : BillingSession :=
  { Billing.exampleSession with
    relayInfo := { Billing.exampleSession.relayInfo with
      forcePreConsume := true
      subscriptionAmountUsedAfterPreConsume := used + 100 }
    funding := .subscription ⟨"r", 1, "m", 100, 7, 100, 1000, used + 100, 0, ""⟩ }

/-- The task succeeds and is settled down to `120`. -/
theorem charge_agrees_settled :
    let db := (openedOn 200).1
    let s := run (step exampleEnv) (Sys.start exampleRow
        (relayTask exampleSubmission (sessionOn 200) db exampleResult none none none).1)
      [.read 0 .poller 0, .work 0 (.video (reports "SUCCESS") 5) none,
        .money 0 120 none ⟨true, none⟩, .write 0 none]
    s.row.quota = 120 ∧ ChargeAgrees s := by
  have hopen : openedOn 200 = ((openedOn 200).1, .ok (sessionOn 200)) := rfl
  have hrow : relayTask exampleSubmission (sessionOn 200) (openedOn 200).1 exampleResult none none
      none = (_, some exampleRow) := rfl
  refine ⟨by decide, ?_⟩
  exact charge_agrees ⟨by decide, fun _ => rfl, rfl⟩ rfl rfl rfl (by decide) hopen rfl
    (.inr ⟨rfl, _, rfl, by decide, by decide⟩) hrow (by decide)

/-- With `870` of `1000` used, the settle for `150` is refused and only logged: the row says `150`
where `100` was taken, and when the task fails its refund returns `50` that were never paid. -/
theorem charge_disagrees_after_refused_settle :
    let db := (openedOn 870).1
    let submitted := relayTask exampleSubmission (sessionOn 870) db exampleResult none none none
    let s := run (step exampleEnv) (Sys.start exampleRow submitted.1)
      [.read 0 .poller 0, .work 0 (.video (reports "FAILURE") 5) none,
        .money 0 0 none ⟨true, none⟩, .write 0 none]
    openedOn 870 = (db, .ok (sessionOn 870)) ∧ submitted.2 = some exampleRow ∧
      taken submitted.1.journal (.subscription 7) = 100 ∧ exampleRow.quota = 150 ∧
      s.row.quota = 0 ∧ taken s.db.journal (.subscription 7) = -50 :=
  ⟨rfl, rfl, by decide, rfl, by decide, by decide⟩

end WynthApi.Polling
