import WynthApi.Lib.Run
import WynthApi.Billing.Calls

/-!
# A session takes what it says, once

A session is driven by any list of calls (`Call`), with the refund goroutine and the other requests of the site
as calls of their own.  A settle or a refund closes the session, and from then on the net amount is fixed.
-/

namespace WynthApi.Billing

open Store StepSys

/-! ### Runs -/

/-- A session with its store and its refund goroutine, and what has happened: the `actualQuota` of every call
that settled, whether a settle or a refund moved a balance, and whether the token step of a settle failed.
-/
structure Sys where
  sess : BillingSession
  db : DB
  job : Option RefundJob
  settledWith : List Int
  (settleMoved refundMoved tokenFailed : Bool)

/-- `others` is any work of other requests between two calls of this one. -/
inductive Call where
  | reserve (targetQuota : Int) (answers : ReserveAnswers)
  | settle (actualQuota : Int) (fundingFault tokenFault : Fault)
  | refund
  | runRefund (faults : RefundJobFaults)
  | others (db : DB)

def Sys.start (s : BillingSession) (db : DB) : Sys := ⟨s, db, none, [], false, false, false⟩

def step (cfg : BillingConfig) (s : Sys) : Call → Sys
  | .reserve target a =>
    let (sess, db, _) := s.sess.reserve cfg s.db target a
    { s with sess, db }
  | .settle actual fundingFault tokenFault =>
    let (sess, db, err) := s.sess.settle s.db actual fundingFault tokenFault
    { s with
      sess
      db
      settledWith := if s.sess.settled = false ∧ sess.settled = true then s.settledWith ++ [actual]
        else s.settledWith
      settleMoved := s.settleMoved || decide (db.journal ≠ s.db.journal)
      tokenFailed := s.tokenFailed || (sess.settled && err.isSome) }
  | .refund =>
    let (sess, job) := s.sess.refund
    { s with sess, job := job.or s.job }
  | .runRefund f =>
    match s.job with
    | none => s
    | some j =>
      let (db, _) := j.run s.db f
      { s with
        db
        job := none
        refundMoved := s.refundMoved || decide (db.journal ≠ s.db.journal) }
  | .others db => { s with db := { db with journal := s.db.journal } }

/-- The goroutine logs no error, and no attempt fails between its usage update and its commit. -/
def CleanRefund (f : RefundJobFaults) (db : DB) : Option RefundJob → Prop
  | none => True
  | some j => (∀ n < 3, (f.attempt n).save = none ∧ (f.attempt n).commit = none) ∧
      (j.run db f).2 = []

/-- The pre-consume record of a subscription session is the same in both stores. -/
def SameRecord (db db' : DB) : FundingSource → Prop
  | .wallet _ => True
  | .subscription f => db'.records.lookup f.requestId = db.records.lookup f.requestId

/-- The order of calls in question: roll-backs succeed, no settle comes after a refund that took
effect, and nobody else touches this request's record. -/
def Allowed (s : Sys) : Call → Prop
  | .reserve _ a => a.rollbackFault = none
  | .settle _ _ _ => s.sess.refunded = false
  | .refund => True
  | .runRefund f => CleanRefund f s.db s.job
  | .others db => SameRecord s.db db s.sess.funding

/-- An allowed call whose statements each applied in full or failed. -/
def Permitted (cfg : BillingConfig) (s : Sys) (c : Call) : Prop :=
  AppliedInFull (step cfg s c).db.journal ∧ Allowed s c

variable (s₀ : BillingSession) (s : Sys)

structure Same : Prop where
  account : s.sess.funding.account = s₀.funding.account
  tokenId : s.sess.relayInfo.tokenId = s₀.relayInfo.tokenId
  playground : s.sess.relayInfo.isPlayground = s₀.relayInfo.isPlayground

/-- Both balances of the session stand at `x`; the token only if it has one and kept up. -/
def NetIs (x : Int) : Prop :=
  taken s.db.journal s₀.funding.account = x ∧
    (s₀.relayInfo.isPlayground = false → s.tokenFailed = false →
      taken s.db.journal (.token s₀.relayInfo.tokenId) = x)

structure IsOpen : Prop where
  holds : Holds s.sess s.db
  base : s.sess.preConsumedQuota = s₀.preConsumedQuota + s.sess.extraReserved
  settled : s.sess.settled = false
  refunded : s.sess.refunded = false
  fundingSettled : s.sess.fundingSettled = false
  job : s.job = none
  settledWith : s.settledWith = []
  settleMoved : s.settleMoved = false
  refundMoved : s.refundMoved = false

structure IsSettled : Prop where
  net : ∃ actual, s.settledWith = [actual] ∧ NetIs s₀ s actual
  settled : s.sess.settled = true
  refunded : s.sess.refunded = false
  job : s.job = none
  refundMoved : s.refundMoved = false

structure IsRefunding (s : Sys) : Prop where
  holds : Holds s.sess s.db
  settled : s.sess.settled = false
  refunded : s.sess.refunded = true
  job : s.job = some (jobOf s.sess)
  settledWith : s.settledWith = []
  settleMoved : s.settleMoved = false

structure IsRefunded : Prop where
  net : NetIs s₀ s 0
  settled : s.sess.settled = false
  refunded : s.sess.refunded = true
  job : s.job = none
  settledWith : s.settledWith = []
  settleMoved : s.settleMoved = false

def Inv : Prop :=
  Same s₀ s ∧ (IsOpen s₀ s ∨ IsSettled s₀ s ∨ IsRefunding s ∨ IsRefunded s₀ s)

variable {db : DB}

section Step

variable {cfg : BillingConfig} {s₀ : BillingSession} {s : Sys}

theorem Same.holds_net (hsame : Same s₀ s) (h : Holds s.sess s.db) : NetIs s₀ s s.sess.preConsumedQuota := by
  refine ⟨by rw [← hsame.account]; exact h.funding, fun hp _ => ?_⟩
  rw [← hsame.tokenId]
  exact h.token (by rw [hsame.playground]; exact hp)

theorem inv_reserve {target : Int} {a : ReserveAnswers} (hinv : Inv s₀ s)
    (hperm : Permitted cfg s (.reserve target a)) : Inv s₀ (step cfg s (.reserve target a)) := by
  obtain ⟨hsame, hphase⟩ := hinv
  obtain ⟨hfull, hroll⟩ := hperm
  by_cases hclosed : s.sess.settled = true ∨ s.sess.refunded = true
  · have hnop : step cfg s (.reserve target a) = s := by simp only [step, reserve_closed hclosed]
    rw [hnop]
    exact ⟨hsame, hphase⟩
  rcases hphase with ho | hset | hring | hred
  · rcases hr : s.sess.reserve cfg s.db target a with ⟨sess, db, err⟩
    simp only [step, hr] at hfull ⊢
    have hk := reserve_keeps hroll hr
    have hbase := hk.base
    have hbase₀ := ho.base
    refine ⟨⟨hk.account.trans hsame.account, hk.tokenId.trans hsame.tokenId,
      hk.playground.trans hsame.playground⟩, .inl ⟨reserve_holds hroll ho.holds hr hfull, ?_,
      hk.settled.trans ho.settled, hk.refunded.trans ho.refunded,
      hk.fundingSettled.trans ho.fundingSettled, ho.job, ho.settledWith, ho.settleMoved, ho.refundMoved⟩⟩
    change sess.preConsumedQuota = s₀.preConsumedQuota + sess.extraReserved
    omega
  · exact absurd (.inl hset.settled) hclosed
  · exact absurd (.inr hring.refunded) hclosed
  · exact absurd (.inr hred.refunded) hclosed

variable {actual : Int} {fundingFault tokenFault : Fault}

theorem settle_net {db₁ db₂ : DB} {err : Option String} {sess : BillingSession} (hholds : Holds sess db)
    (hf : sess.funding.settle db (actual - sess.preConsumedQuota) fundingFault = .ok db₁)
    (ht : sess.settleToken db₁ (actual - sess.preConsumedQuota) tokenFault = (db₂, err))
    (hfull : AppliedInFull db₂.journal) : taken db₂.journal sess.funding.account = actual ∧
      (sess.relayInfo.isPlayground = false → err = none →
        taken db₂.journal (.token sess.relayInfo.tokenId) = actual) := by
  have hm := FundingSource.settle_moves hf
  have hfund := hholds.funding
  rcases settleToken_cases ht with ⟨rfl, hplay⟩ | ⟨-, rfl⟩
  · refine ⟨?_, fun hp herr => ?_⟩
    · rw [hm.net hfull, if_pos rfl]
      omega
    · rw [hplay herr] at hp
      cases hp
  · have hnet := hm.net (hfull.anti (Moves.post _ _ _ _).journal)
    refine ⟨?_, fun hp _ => ?_⟩
    · simp only [post_journal, taken_append, taken_singleton, hnet, if_true,
        if_neg (account_ne_token sess.funding _).symm]
      omega
    · have htok := hholds.token hp
      simp only [post_journal, taken_append, taken_singleton, hnet, if_true, if_neg (account_ne_token sess.funding _)]
      omega

theorem inv_settle (hinv : Inv s₀ s) (hperm : Permitted cfg s (.settle actual fundingFault tokenFault)) :
    Inv s₀ (step cfg s (.settle actual fundingFault tokenFault)) := by
  obtain ⟨hsame, hphase⟩ := hinv
  obtain ⟨hfull, hnot⟩ := hperm
  change s.sess.refunded = false at hnot
  rcases hphase with ho | hset | hring | hred
  · rcases hr : s.sess.settle s.db actual fundingFault tokenFault with ⟨sess, db, err⟩
    simp only [step, hr] at hfull ⊢
    obtain ⟨rfl, rfl, -⟩ | ⟨hq, rfl, rfl⟩ | ⟨db₁, info, -, hf, ht, hid, hpl, rfl⟩ :=
      settle_cases ho.settled ho.fundingSettled hr
    · -- the funding step failed: the session stays open
      refine ⟨⟨hsame.account, hsame.tokenId, hsame.playground⟩, .inl ⟨ho.holds, ho.base,
        ho.settled, ho.refunded, ho.fundingSettled, ho.job, ?_, ?_, ho.refundMoved⟩⟩
      · simp [ho.settled, ho.settledWith]
      · simp [ho.settleMoved]
    · have hnet := hsame.holds_net ho.holds
      rw [← hq] at hnet
      refine ⟨⟨hsame.account, hsame.tokenId, hsame.playground⟩, .inr (.inl ⟨⟨actual, ?_,
        hnet.1, fun hp htf => hnet.2 hp ?_⟩, rfl, ho.refunded, ho.job, ho.refundMoved⟩)⟩
      · simp [ho.settled, ho.settledWith]
      · simp only [Bool.or_eq_false_iff] at htf
        exact htf.1
    · obtain ⟨hsrc, htok⟩ := settle_net ho.holds hf ht hfull
      refine ⟨⟨hsame.account, hid.trans hsame.tokenId, hpl.trans hsame.playground⟩,
        .inr (.inl ⟨⟨actual, ?_, ?_, fun hp htf => ?_⟩, rfl, ho.refunded, ho.job, ho.refundMoved⟩)⟩
      · simp [ho.settled, ho.settledWith]
      · rw [← hsame.account]
        exact hsrc
      · simp only [Bool.true_and, Bool.or_eq_false_iff, Option.isSome_eq_false_iff,
          Option.isNone_iff_eq_none] at htf
        rw [← hsame.tokenId]
        exact htok (hsame.playground.trans hp) htf.2
  · have hnop : step cfg s (.settle actual fundingFault tokenFault) = s := by
      simp [step, settle_settled hset.settled]
    rw [hnop]
    exact ⟨hsame, .inr (.inl hset)⟩
  · rw [hring.refunded] at hnot
    cases hnot
  · rw [hred.refunded] at hnot
    cases hnot

theorem inv_refund (hinv : Inv s₀ s) : Inv s₀ (step cfg s .refund) := by
  obtain ⟨hsame, hphase⟩ := hinv
  by_cases hclosed : s.sess.settled = true ∨ s.sess.refunded = true
  · have hnop : step cfg s .refund = s := by simp [step, refund_closed hclosed]
    rw [hnop]
    exact ⟨hsame, hphase⟩
  rcases hphase with ho | hset | hring | hred
  · rcases hr : s.sess.refund with ⟨sess, job⟩
    simp only [step, hr]
    rcases refund_cases hr with ⟨rfl, rfl⟩ | ⟨-, rfl, rfl⟩
    · exact ⟨⟨hsame.account, hsame.tokenId, hsame.playground⟩, .inl ⟨ho.holds, ho.base,
        ho.settled, ho.refunded, ho.fundingSettled, ho.job, ho.settledWith, ho.settleMoved,
        ho.refundMoved⟩⟩
    · have hh := ho.holds
      exact ⟨⟨hsame.account, hsame.tokenId, hsame.playground⟩, .inr (.inr (Or.inl
        ⟨⟨hh.funding, hh.token, hh.nonneg, hh.consumed, hh.backed⟩, ho.settled, rfl, rfl,
          ho.settledWith, ho.settleMoved⟩))⟩
  · exact absurd (.inl hset.settled) hclosed
  · exact absurd (.inr hring.refunded) hclosed
  · exact absurd (.inr hred.refunded) hclosed

theorem inv_runRefund {f : RefundJobFaults} (hinv : Inv s₀ s)
    (hperm : Permitted cfg s (.runRefund f)) : Inv s₀ (step cfg s (.runRefund f)) := by
  obtain ⟨hsame, hphase⟩ := hinv
  obtain ⟨hfull, hok⟩ := hperm
  have hidle : s.job = none → Inv s₀ (step cfg s (.runRefund f)) := by
    intro hj
    have hnop : step cfg s (.runRefund f) = s := by simp only [step, hj]
    rw [hnop]
    exact ⟨hsame, hphase⟩
  rcases hphase with ho | hset | hring | hred
  · exact hidle ho.job
  · exact hidle hset.job
  · change CleanRefund f s.db s.job at hok
    rw [hring.job] at hok
    obtain ⟨hsafe, hlog⟩ := hok
    rcases hr : (jobOf s.sess).run s.db f with ⟨db, log⟩
    rw [hr] at hlog
    simp only at hlog
    subst hlog
    simp only [step, hring.job, hr] at hfull ⊢
    obtain ⟨hsrc, htok⟩ := run_returns_all hring.holds hsafe hr hfull
    refine ⟨⟨hsame.account, hsame.tokenId, hsame.playground⟩, .inr (.inr (Or.inr
      ⟨⟨?_, fun hp _ => ?_⟩, hring.settled, hring.refunded, rfl, hring.settledWith, hring.settleMoved⟩))⟩
    · rw [← hsame.account]
      exact hsrc
    · rw [← hsame.tokenId]
      exact htok (hsame.playground.trans hp)
  · exact hidle hred.job

theorem inv_others (hinv : Inv s₀ s) (hperm : Permitted cfg s (.others db)) : Inv s₀ (step cfg s (.others db)) := by
  obtain ⟨hsame, hphase⟩ := hinv
  have hrec : ∀ f, s.sess.funding = .subscription f →
      db.records.lookup f.requestId = s.db.records.lookup f.requestId := by
    intro f hf
    have hsame : SameRecord s.db db s.sess.funding := hperm.2
    rwa [hf] at hsame
  refine ⟨⟨hsame.account, hsame.tokenId, hsame.playground⟩, ?_⟩
  rcases hphase with ho | hset | hring | hred
  · exact .inl ⟨ho.holds.congr (fun _ => rfl) hrec, ho.base, ho.settled, ho.refunded,
      ho.fundingSettled, ho.job, ho.settledWith, ho.settleMoved, ho.refundMoved⟩
  · exact .inr (.inl ⟨hset.net, hset.settled, hset.refunded, hset.job, hset.refundMoved⟩)
  · exact .inr (.inr (.inl ⟨hring.holds.congr (fun _ => rfl) hrec, hring.settled,
      hring.refunded, hring.job, hring.settledWith, hring.settleMoved⟩))
  · exact .inr (.inr (.inr ⟨hred.net, hred.settled, hred.refunded, hred.job,
      hred.settledWith, hred.settleMoved⟩))

theorem inv_step (s : Sys) (c : Call) (hinv : Inv s₀ s) (hperm : Permitted cfg s c) : Inv s₀ (step cfg s c) := by
  cases c with
  | reserve target a => exact inv_reserve hinv hperm
  | settle actual fundingFault tokenFault => exact inv_settle hinv hperm
  | refund => exact inv_refund hinv
  | runRefund f => exact inv_runRefund hinv hperm
  | others db => exact inv_others hinv hperm

end Step

/-! ### Conservation -/

/-- What the request pays in the end: the settled amount, nothing after a refund, and otherwise
what was pre-consumed and reserved. -/
def owed : Int :=
  match s.settledWith with
  | actual :: _ => actual
  | [] => if s.sess.refunded then 0 else s₀.preConsumedQuota + s.sess.extraReserved

variable {s₀ : BillingSession}

theorem Inv.net {s : Sys} (h : Inv s₀ s) (hdone : s.job = none) : NetIs s₀ s (owed s₀ s) := by
  obtain ⟨hsame, ho | hset | hring | hred⟩ := h
  · have hnet := hsame.holds_net ho.holds
    rw [ho.base] at hnet
    simpa [owed, ho.settledWith, ho.refunded] using hnet
  · obtain ⟨actual, hw, hnet⟩ := hset.net
    simpa [owed, hw] using hnet
  · rw [hring.job] at hdone
    cases hdone
  · simpa [owed, hred.settledWith, hred.refunded] using hred.net

theorem Inv.once {s : Sys} (h : Inv s₀ s) :
    s.settledWith.length ≤ 1 ∧ (s.settledWith ≠ [] → s.sess.refunded = false) ∧
      ¬ (s.settleMoved = true ∧ s.refundMoved = true) := by
  obtain ⟨-, ho | hset | hring | hred⟩ := h
  · simp [ho.settledWith, ho.settleMoved]
  · obtain ⟨actual, hw, -⟩ := hset.net
    simp [hw, hset.refunded, hset.refundMoved]
  · simp [hring.settledWith, hring.settleMoved]
  · simp [hred.settledWith, hred.settleMoved]

theorem inv_start (h : Opened s₀ db) : Inv s₀ (Sys.start s₀ db) := by
  refine ⟨⟨rfl, rfl, rfl⟩, .inl ⟨h.holds, ?_, h.unsettled, h.unrefunded, h.unfunded, rfl, rfl, rfl, rfl⟩⟩
  change s₀.preConsumedQuota = s₀.preConsumedQuota + s₀.extraReserved
  rw [h.extra, add_zero]

/-- **Conservation**: whatever calls are made on a session, once no refund is pending the source and
the token have paid exactly what is owed, at most one settle counted, and a settle and a refund
never both moved money. -/
theorem session_conserves {cfg : BillingConfig} {env : SessionEnv} {info : RelayInfo} {db : DB}
    {quota : Int} {s₀ : BillingSession} {calls : List Call} (hjournal : db.journal = [])
    (hfresh : db.records.lookup info.requestId = none)
    (hwallet : env.wallet.rollbackFault = none) (hsub : env.subscription.rollbackFault = none)
    (hdup : env.subscription.tx.dup = none)
    (hnew : (newBillingSession cfg env (some info) db quota).2 = .ok s₀)
    (hcalls : Along (step cfg) (Permitted cfg)
      (Sys.start s₀ (newBillingSession cfg env (some info) db quota).1) calls)
    (hdone : (run (step cfg)
      (Sys.start s₀ (newBillingSession cfg env (some info) db quota).1) calls).job = none) :
    let s := run (step cfg) (Sys.start s₀ (newBillingSession cfg env (some info) db quota).1) calls
    taken s.db.journal s₀.funding.account = owed s₀ s ∧
      (s₀.relayInfo.isPlayground = false → s.tokenFailed = false →
        taken s.db.journal (.token s₀.relayInfo.tokenId) = owed s₀ s) ∧
      s.settledWith.length ≤ 1 ∧ (s.settledWith ≠ [] → s.sess.refunded = false) ∧
      ¬ (s.settleMoved = true ∧ s.refundMoved = true) := by
  intro s
  have hclean : Clean db info.requestId := by
    refine ⟨?_, fun a => ?_, hfresh⟩
    · rw [hjournal]
      intro e he
      cases he
    · rw [hjournal, taken_nil]
  have hopened := newBillingSession_opened hclean hwallet hsub hdup (Prod.ext rfl hnew)
  have hinv : Inv s₀ s := run_inv inv_step (inv_start hopened) hcalls
  exact ⟨(hinv.net hdone).1, (hinv.net hdone).2, hinv.once⟩

def exampleConfig : BillingConfig := ⟨0, fun _ => ""⟩

def exampleAnswers : PreConsumeAnswers :=
  { tokenRead := .ok 1000, tokenFault := none, walletFault := none, rollbackFault := none
    tx := ⟨0, fun _ sub => .ok sub, none, none⟩, planInfo := fun _ => none }

def exampleDB : DB :=
  { userQuota := fun _ => 1000, tokenQuota := fun _ => 1000
    subs := AList.singleton 7 ⟨1, 1, 1000, 200, 0, 10, .active, 0, 0⟩
    records := ∅, journal := [] }

def exampleInfo : RelayInfo :=
  { userId := 1, tokenId := 2, requestId := "r", originModelName := "m"
    billingPreference := "subscription_only", tokenUnlimited := false, isPlayground := false
    forcePreConsume := false, userQuota := 0, finalPreConsumedQuota := 0, billingSource := none
    subscriptionId := 0, subscriptionPreConsumed := 0, subscriptionPostDelta := 0
    subscriptionAmountTotal := 0, subscriptionAmountUsedAfterPreConsume := 0
    subscriptionPlanId := 0, subscriptionPlanTitle := "" }

def exampleEnv : SessionEnv :=
  ⟨1000, .ok 1000, .ok true, .ok true, exampleAnswers, exampleAnswers⟩

def exampleSession : BillingSession :=
  { relayInfo := { exampleInfo with
      finalPreConsumedQuota := 100, billingSource := some .subscription, subscriptionId := 7
      subscriptionPreConsumed := 100, subscriptionAmountTotal := 1000
      subscriptionAmountUsedAfterPreConsume := 300 }
    funding := .subscription ⟨"r", 1, "m", 100, 7, 100, 1000, 300, 0, ""⟩
    preConsumedQuota := 100, tokenConsumed := 100, extraReserved := 0, trusted := false
    fundingSettled := false, settled := false, refunded := false }

def exampleCalls : List Call :=
  [.reserve 150 ⟨none, .ok 1000, none, none⟩, .settle 2000 none none, .refund, .runRefund .none]

theorem session_conserves_refused_settle :
    let s := run (step exampleConfig) (Sys.start exampleSession
      (newBillingSession exampleConfig exampleEnv (some exampleInfo) exampleDB 100).1) exampleCalls
    s.sess.extraReserved = 50 ∧ s.sess.refunded = true ∧
      taken s.db.journal (.subscription 7) = owed exampleSession s ∧ owed exampleSession s = 0 := by
  refine ⟨by decide, by decide, ?_, by decide⟩
  refine (session_conserves rfl rfl rfl rfl rfl rfl ?_ rfl).1
  exact ⟨⟨by decide, rfl⟩, ⟨by decide, rfl⟩, ⟨by decide, trivial⟩,
    ⟨by decide, by decide, by decide⟩, trivial⟩

end WynthApi.Billing
