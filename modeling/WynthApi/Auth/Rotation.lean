import Mathlib.Data.List.Nodup
import Mathlib.Logic.Function.Iterate
import WynthApi.Auth.Calls

/-!
# The refresh tokens of a session form one chain

Every rotation moves the row to the next link of the chain of derived secrets, so the row holds a link and the
one before it.  A call that presents the link before the row's is given the row's own within the grace window,
and revokes the session after it.

A call revokes the session of a user who has changed before it looks at its token, so a token that was never issued
can revoke it (`forged_token_revokes`); `refresh_one_winner` asks that the user is unchanged then.
-/

namespace WynthApi.Auth

open List UserSession StepSys

variable {Secret Hash : Type}

/-! ### The chain -/

section Chain

variable (tok : Tokens Secret Hash) (first : Secret)

def link (n : ℕ) : Secret := tok.deriveNextRefreshSecret^[n] first

theorem link_succ (n : ℕ) : link tok first (n + 1) = tok.deriveNextRefreshSecret (link tok first n) :=
  Function.iterate_succ_apply' _ n first

/-- The two keyed hashes are injective, and the first secret is drawn, not derived. -/
structure Ideal : Prop where
  hash : Function.Injective tok.hashRefreshSecret
  derive : Function.Injective tok.deriveNextRefreshSecret
  drawn : ∀ secret, tok.deriveNextRefreshSecret secret ≠ first

variable {tok first}

theorem Ideal.link_injective (h : Ideal tok first) : Function.Injective (link tok first) := by
  have hback : ∀ m n, m < n → link tok first m ≠ link tok first n := by
    intro m
    induction m with
    | zero =>
      intro n hn heq
      obtain ⟨k, rfl⟩ : ∃ k, n = k + 1 := ⟨n - 1, by omega⟩
      rw [link_succ] at heq
      exact h.drawn _ heq.symm
    | succ m ih =>
      intro n hn heq
      obtain ⟨k, rfl⟩ : ∃ k, n = k + 1 := ⟨n - 1, by omega⟩
      rw [link_succ, link_succ] at heq
      exact ih k (by omega) (h.derive heq)
  intro m n heq
  rcases Nat.lt_trichotomy m n with hlt | rfl | hlt
  · exact absurd heq (hback m n hlt)
  · rfl
  · exact absurd heq.symm (hback n m hlt)

variable (tok first)

def linkHashes (k : ℕ) : Hash × Hash :=
  (tok.hashRefreshSecret (link tok first k), tok.hashRefreshSecret (link tok first (k + 1)))

def issued (sh : Shared Secret Hash) : List Secret :=
  (List.range (sh.rotations.length + 1)).map (link tok first)

variable {tok first}

theorem mem_issued {sh : Shared Secret Hash} {n : ℕ} (h : n ≤ sh.rotations.length) :
    link tok first n ∈ issued tok first sh :=
  mem_map.mpr ⟨n, mem_range.mpr (by omega), rfl⟩

end Chain

/-! ### What is known -/

variable {rot : Rotation Secret} {cont : Cont Secret Hash}

section Invariant

variable {tok : Tokens Secret Hash} {first : Secret} {v : Int}
  {sh sh' : Shared Secret Hash}

variable (tok first v sh)

def previousHash : ℕ → Option Hash
  | 0 => none
  | n + 1 => some (tok.hashRefreshSecret (link tok first n))

/-- The row holds two consecutive links; everything in the cache has the session's one version; and a
call that revoked the session had been issued its token. -/
structure ChainOk : Prop where
  rotations : sh.rotations = (List.range sh.rotations.length).map (linkHashes tok first)
  current : sh.row.refreshHash = tok.hashRefreshSecret (link tok first sh.rotations.length)
  previous : sh.row.previousRefreshHash = previousHash tok first sh.rotations.length
  version : sh.row.version = v
  key : ∀ k, sh.cache = some k → k.entry.version = v
  unlocked : sh.lock = none
  revokedBy : ∀ secret, sh.revokedBy = some secret → secret ∈ issued tok first sh

variable {tok first v sh}

structure ChainGuar (sh sh' : Shared Secret Hash) : Prop where
  rotations : ∃ l, sh'.rotations = sh.rotations ++ l
  dead : sh.row.status ≠ .active → sh'.row.status ≠ .active
  kept : sh'.row.status = .active → sh'.row.userID = sh.row.userID ∧
    sh'.row.expiresAt = sh.row.expiresAt ∧ sh'.row.revokedAt = sh.row.revokedAt

theorem ChainGuar.refl (sh : Shared Secret Hash) : ChainGuar sh sh :=
  ⟨⟨[], by simp⟩, id, fun _ => ⟨rfl, rfl, rfl⟩⟩

theorem ChainGuar.mem {p : Hash × Hash} (hg : ChainGuar sh sh') (h : p ∈ sh.rotations) : p ∈ sh'.rotations := by
  obtain ⟨l, hl⟩ := hg.rotations
  rw [hl]
  exact mem_append_left l h

theorem ChainGuar.issued {secret : Secret} (hg : ChainGuar sh sh')
    (h : secret ∈ issued tok first sh) : secret ∈ Auth.issued tok first sh' := by
  obtain ⟨l, hl⟩ := hg.rotations
  obtain ⟨n, hn, rfl⟩ := mem_map.mp h
  apply mem_issued
  rw [hl, length_append]
  have := mem_range.mp hn
  omega

/-- The rotation finds its row, unless the session is revoked. -/
def Finds (sh : Shared Secret Hash) (rot : Rotation Secret) : Prop :=
  sh.row.status = .active → sh.row.userID = rot.userID ∧ sh.row.live rot.now = true

theorem Finds.mono (hg : ChainGuar sh sh') (h : Finds sh rot) : Finds sh' rot := by
  intro hactive
  obtain ⟨huser, hexpires, hrevoked⟩ := hg.kept hactive
  have hbefore : sh.row.status = .active := by
    by_contra hdead
    exact hg.dead hdead hactive
  obtain ⟨hrot, hlive⟩ := h hbefore
  refine ⟨huser.trans hrot, ?_⟩
  simp only [live, hbefore, hactive, hexpires, hrevoked] at hlive ⊢
  exact hlive

variable (tok first v sh)

def ContKnows (entry : CacheEntry) : Cont Secret Hash → Prop
  | .rotated rot _ => (tok.hashRefreshSecret rot.secret,
      tok.hashRefreshSecret (tok.deriveNextRefreshSecret rot.secret)) ∈ sh.rotations
  | .reuseFence rot session => session.version = v ∧ rot.secret ∈ issued tok first sh ∧
      Finds sh rot ∧ entry.status ≠ .active
  | .revokeFence caller _ candidate => candidate.version = v ∧
      ∀ secret, caller.secret = some secret → secret ∈ issued tok first sh
  | .fill _ _ | .deny _ | .reuseDone | .revokeDone _ => True
  | .advanced _ _ | .hashFence _ _ _ | .hashDone | .allFence _ _ | .allDone _ => False

/-- What a thread knows at its place.  Only refreshes run, so the other calls have no places. -/
def PcKnows : Pc Secret Hash → Prop
  | .returned (.refreshed secret next) => next = tok.deriveNextRefreshSecret secret ∧
      (tok.hashRefreshSecret secret, tok.hashRefreshSecret next) ∈ sh.rotations
  | .read _ (.check _ session) => session.version = v
  | .rotate rot (.swap _ _ session) => session.version = v ∧
      session.refreshHash = tok.hashRefreshSecret rot.secret
  | .rotate rot (.confirm _) => (tok.hashRefreshSecret rot.secret,
      tok.hashRefreshSecret (tok.deriveNextRefreshSecret rot.secret)) ∈ sh.rotations
  | .rotate rot (.revoke session) => session.version = v ∧ rot.secret ∈ issued tok first sh ∧
      Finds sh rot
  | .revoke caller _ _ (.tx _ candidate) => candidate.version = v ∧
      ∀ secret, caller.secret = some secret → secret ∈ issued tok first sh
  | .revoke caller _ _ _ =>
      ∀ secret, caller.secret = some secret → secret ∈ issued tok first sh
  | .write entry _ stage cont => entry.version = v ∧ (stage = .complete → entry.status = .active) ∧
      ContKnows tok first v sh entry cont
  | .advance _ _ | .revokeHash _ _ _ | .revokeAll _ _ _ => False
  | _ => True

/-- The places of a call that has met its token as the previous one after the grace window, until it
has revoked the session. -/
def Replaying : Pc Secret Hash → Prop
  | .write _ _ _ (.reuseFence _ _) => True
  | .rotate _ (.revoke _) => True
  | .returned (.failed _) => True
  | _ => False

def Knows (_ : ℕ) (th : Thread Secret Hash) : Prop :=
  PcKnows tok first v sh th.pc ∧
    (th.replayed = true → sh.row.status ≠ .active ∨ Replaying th.pc)

variable {tok first v sh}

theorem ContKnows.mono {entry : CacheEntry} (hg : ChainGuar sh sh')
    (h : ContKnows tok first v sh entry cont) : ContKnows tok first v sh' entry cont := by
  cases cont with
  | rotated rot session => exact hg.mem h
  | reuseFence rot session => exact ⟨h.1, hg.issued h.2.1, h.2.2.1.mono hg, h.2.2.2⟩
  | revokeFence caller rv candidate => exact ⟨h.1, fun secret hs => hg.issued (h.2 secret hs)⟩
  | _ => exact h

theorem PcKnows.mono {pc : Pc Secret Hash} (hg : ChainGuar sh sh')
    (h : PcKnows tok first v sh pc) : PcKnows tok first v sh' pc := by
  unfold PcKnows at h ⊢
  split at h
  · exact ⟨h.1, hg.mem h.2⟩
  · exact h
  · exact h
  · exact hg.mem h
  · exact ⟨h.1, hg.issued h.2.1, h.2.2.mono hg⟩
  · exact ⟨h.1, fun secret hs => hg.issued (h.2 secret hs)⟩
  · exact fun secret hs => hg.issued (h secret hs)
  · exact ⟨h.1, h.2.1, h.2.2.mono hg⟩
  · exact h
  · exact h
  · exact h
  · exact h

theorem knows_stable : Threads.Stable (Knows tok first v) (fun _ => @ChainGuar Secret Hash) := by
  intro i j sh sh' th _ hg h
  refine ⟨h.1.mono hg, fun hr => ?_⟩
  rcases h.2 hr with hdead | hphase
  · exact .inl (hg.dead hdead)
  · exact .inr hphase

end Invariant

/-! ### Every move keeps it -/

section Moves

variable {tok : Tokens Secret Hash} {first : Secret} {v : Int} {sh sh' : Shared Secret Hash}
  {cfg : Config} {env : Env}

variable (tok first v sh) in
structure Keeps (r : Shared Secret Hash × Pc Secret Hash) : Prop where
  shared : ChainOk tok first v r.1
  guar : ChainGuar sh r.1
  pc : PcKnows tok first v r.1 r.2

variable {pc : Pc Secret Hash} {entry : CacheEntry} {secret : Secret} {i : ℕ}

variable (h : ChainOk tok first v sh)

include h in
theorem keeps_same (hpc : PcKnows tok first v sh pc) : Keeps tok first v sh (sh, pc) :=
  ⟨h, ChainGuar.refl sh, hpc⟩

theorem knows_readReturns (caller : Caller Secret) (entry : Option CacheEntry) :
    PcKnows tok first v sh (readReturns caller entry) := by
  cases caller <;> cases entry <;> trivial

theorem knows_revokeReturns (caller : Caller Secret) {answer : Answer Secret}
    (h : PcKnows tok first v sh (.returned answer)) : PcKnows tok first v sh (revokeReturns caller answer) := by
  cases caller
  · exact h
  · trivial

theorem knows_answer (e : WriteError) : PcKnows tok first v sh (.returned e.answer) := by
  cases e <;> trivial

theorem resume_knows (h : ContKnows tok first v sh entry cont)
    (result : Except WriteError Unit) : PcKnows tok first v sh (resume tok cont result) := by
  cases cont with
  | fill caller session =>
    rcases result with (_ | _ | _ | _) | _ <;> first | trivial | exact knows_readReturns _ _
  | deny caller => exact knows_readReturns _ _
  | rotated rot session =>
    rcases result with (_ | _ | _ | _) | _
    · exact ⟨rfl, h⟩
    · exact h
    · trivial
    · exact ⟨rfl, h⟩
    · exact ⟨rfl, h⟩
  | reuseFence rot session =>
    rcases result with e | _
    · exact knows_answer e
    · exact ⟨h.1, h.2.1, h.2.2.1⟩
  | reuseDone | revokeDone => trivial
  | revokeFence caller rv candidate =>
    rcases result with e | _
    · exact knows_revokeReturns caller (knows_answer e)
    · exact h
  | advanced | hashFence | hashDone | allFence | allDone => exact h.elim

include h in
theorem chain_cache (hv : entry.version = v) (expiration : Expiration) :
    let sh' := { sh with cache := (runScript sh.cache entry expiration sh.clock).1 }
    ChainOk tok first v sh' ∧ ChainGuar sh sh' := by
  refine ⟨⟨h.rotations, h.current, h.previous, h.version, fun k hk => ?_, h.unlocked, h.revokedBy⟩,
    ⟨⟨[], by simp⟩, id, fun _ => ⟨rfl, rfl, rfl⟩⟩⟩
  simp only [runScript] at hk
  split_ifs at hk
  · exact h.key k hk
  · exact h.key k hk
  · cases expiration with
    | «at» ms =>
      simp only at hk
      split_ifs at hk
      · cases hk
        exact hv
    | after ms =>
      cases hk
      exact hv

include h in
theorem moveWrite_keeps {deadline : Option Int} {stage : WriteStage}
    (hpc : PcKnows tok first v sh (.write entry deadline stage cont)) :
    Keeps tok first v sh (moveWrite cfg tok sh env entry deadline cont stage) := by
  obtain ⟨hv, hstage, hcont⟩ := hpc
  cases stage with
  | prepare =>
    simp only [moveWrite]
    split_ifs
    · exact keeps_same h (resume_knows hcont _)
    · split
      · exact keeps_same h (resume_knows hcont _)
      · exact keeps_same h ⟨hv, nofun, hcont⟩
  | send expiration =>
    obtain ⟨hok, hguar⟩ := chain_cache h hv expiration
    simp only [moveWrite]
    split
    · exact keeps_same h (resume_knows hcont _)
    · exact ⟨hok, hguar, resume_knows (hcont.mono hguar) _⟩
    · refine ⟨hok, hguar, ?_⟩
      simp only
      split_ifs with _ hactive
      · exact resume_knows (hcont.mono hguar) _
      · exact ⟨hv, fun _ => hactive, hcont.mono hguar⟩
      · exact resume_knows (hcont.mono hguar) _
  | complete => exact keeps_same h (resume_knows hcont _)

variable {caller : Caller Secret}

include h in
theorem moveRead_knows {pc : ReadPc Hash} (hpc : PcKnows tok first v sh (.read caller pc)) :
    PcKnows tok first v sh (moveRead cfg sh env caller pc) := by
  cases pc with
  | cache =>
    simp only [moveRead]
    split_ifs <;> trivial
  | reply entry =>
    cases entry with
    | none => trivial
    | some entry =>
      simp only [moveRead]
      split_ifs <;> first | trivial | exact knows_readReturns _ _
  | deadline => trivial
  | row deadline =>
    simp only [moveRead]
    split_ifs
    · cases caller <;> trivial
    · exact h.version
  | check deadline session =>
    have hv : session.version = v := hpc
    simp only [moveRead]
    split_ifs
    · exact ⟨hv, nofun, trivial⟩
    · exact knows_readReturns _ _
    · exact ⟨hv, nofun, trivial⟩
    · exact knows_readReturns _ _
  | confirm session =>
    simp only [moveRead]
    split_ifs
    · cases caller <;> trivial
    · exact knows_readReturns _ _
    · exact knows_readReturns _ _

/-- The user is as the session has it, or cannot be looked up. -/
def userUnchanged (env : Env) (session : CacheEntry) : Bool :=
  match env.cachedUser, env.currentUser with
  | some cached, some current =>
    cached.enabled && cached.authVersion = session.userAuthVersion &&
      current.enabled && current.authVersion = session.userAuthVersion
  | _, _ => true

variable (tok first sh env) in
/-- A refresh whose token was not issued finds the user unchanged. -/
def Settled : Pc Secret Hash → Prop
  | .refresh secret (.user session) =>
    secret ∈ issued tok first sh ∨ userUnchanged env session = true
  | _ => True

theorem moveRefresh_knows [DecidableEq Hash] {pc : RefreshPc} (hset : Settled tok first sh env (.refresh secret pc)) :
    PcKnows tok first v sh (moveRefresh tok sh env secret pc) := by
  cases pc with simp only [moveRefresh]
  | check | clock => split_ifs <;> trivial
  | user session =>
    split
    · rename_i cached current hcached hcurrent
      split_ifs with hchanged
      · intro x hx
        cases hx
        rcases hset with hissued | hsame
        · exact hissued
        · exfalso
          simp only [userUnchanged, hcached, hcurrent, Bool.and_eq_true, decide_eq_true_eq] at hsame
          rcases hchanged with hoff | hne | hoff | hne
          · simp [hsame.1.1.1] at hoff
          · exact hne hsame.1.1.2
          · simp [hsame.1.2] at hoff
          · exact hne hsame.2
      · trivial
    · trivial

theorem rotated_of_previous (hideal : Ideal tok first) (h : ChainOk tok first v sh)
    (hprev : sh.row.previousRefreshHash = some (tok.hashRefreshSecret secret)) :
    secret ∈ issued tok first sh ∧ (tok.hashRefreshSecret secret,
      tok.hashRefreshSecret (tok.deriveNextRefreshSecret secret)) ∈ sh.rotations := by
  rw [h.previous] at hprev
  cases hn : sh.rotations.length with
  | zero =>
    rw [hn] at hprev
    cases hprev
  | succ m =>
    rw [hn] at hprev
    have hsecret : link tok first m = secret := hideal.hash (Option.some.inj hprev)
    subst hsecret
    refine ⟨mem_issued (by omega), ?_⟩
    rw [h.rotations, ← link_succ]
    exact mem_map.mpr ⟨m, mem_range.mpr (by omega), rfl⟩

/-- **Rotation**: the row moves to the next link. -/
theorem chain_rotate (hideal : Ideal tok first) (h : ChainOk tok first v sh)
    (hcurrent : sh.row.refreshHash = tok.hashRefreshSecret secret) {r : UserSession Hash}
    (hprevious : r.previousRefreshHash = some (tok.hashRefreshSecret secret))
    (hnext : r.refreshHash = tok.hashRefreshSecret (tok.deriveNextRefreshSecret secret))
    (hkept : r.userID = sh.row.userID ∧ r.expiresAt = sh.row.expiresAt ∧ r.revokedAt = sh.row.revokedAt ∧
      r.version = sh.row.version ∧ r.status = sh.row.status) :
    let sh' := { sh with
      row := r
      rotations := sh.rotations ++ [(tok.hashRefreshSecret secret,
        tok.hashRefreshSecret (tok.deriveNextRefreshSecret secret))] }
    ChainOk tok first v sh' ∧ ChainGuar sh sh' := by
  intro sh'
  have hsecret : link tok first sh.rotations.length = secret := hideal.hash (h.current.symm.trans hcurrent)
  have hlen : sh'.rotations.length = sh.rotations.length + 1 := by simp [sh']
  have hguar : ChainGuar sh sh' :=
    ⟨⟨_, rfl⟩, fun hdead => hkept.2.2.2.2 ▸ hdead, fun _ => ⟨hkept.1, hkept.2.1, hkept.2.2.1⟩⟩
  refine ⟨⟨?_, ?_, ?_, hkept.2.2.2.1.trans h.version, h.key, h.unlocked,
    fun x hx => hguar.issued (h.revokedBy x hx)⟩, hguar⟩
  · rw [hlen, range_succ, map_append, ← h.rotations, map_singleton, linkHashes, link_succ, hsecret]
  · rw [hlen, link_succ, hsecret]
    exact hnext
  · rw [hlen, previousHash, hsecret]
    exact hprevious

include h in
theorem chain_revoke (now : Int) (reason : String)
    {secret : Option Secret} (hissued : ∀ x, secret = some x → x ∈ issued tok first sh) :
    ChainOk tok first v (sh.revokeRow now reason secret) ∧ ChainGuar sh (sh.revokeRow now reason secret) := by
  refine ⟨⟨h.rotations, h.current, h.previous, h.version, h.key, h.unlocked, hissued⟩,
    ⟨⟨[], by simp [Shared.revokeRow]⟩, fun _ => ?_, fun hactive => ?_⟩⟩
  · simp [Shared.revokeRow, revoke]
  · simp [Shared.revokeRow, revoke] at hactive

theorem moveRotate_keeps [DecidableEq Hash] (hideal : Ideal tok first) (h : ChainOk tok first v sh)
    {pc : RotatePc Hash} (hpc : PcKnows tok first v sh (.rotate rot pc)) :
    Keeps tok first v sh (moveRotate cfg tok sh env rot pc) := by
  cases pc with
  | deadline left => exact keeps_same h trivial
  | row left deadline =>
    simp only [moveRotate]
    split_ifs with hdb huser hdead hcurrent hprevious hgrace hnext
    · exact keeps_same h trivial
    · exact keeps_same h trivial
    · exact keeps_same h trivial
    · exact keeps_same h ⟨h.version, hcurrent⟩
    · exact keeps_same h trivial
    · have hrotated := rotated_of_previous hideal h (not_not.mp hprevious)
      exact keeps_same h ⟨rfl, hrotated.2⟩
    · exact keeps_same h trivial
    · have hrotated := rotated_of_previous hideal h (not_not.mp hprevious)
      have hfinds : Finds sh rot := fun _ =>
        ⟨not_not.mp huser, Bool.eq_true_of_not_eq_false hdead⟩
      exact keeps_same h ⟨h.version, nofun, h.version, hrotated.1, hfinds, by simp [denyFence]⟩
  | swap left deadline session =>
    obtain ⟨hv, hpresented⟩ := hpc
    simp only [moveRotate]
    split_ifs with hheld hdb hmatch
    · exact keeps_same h ⟨hv, hpresented⟩
    · exact keeps_same h trivial
    · obtain ⟨hok, hguar⟩ := chain_rotate hideal h hmatch.2.2 (r := { sh.row with
          previousRefreshHash := some session.refreshHash
          previousValidUntil := rot.now + cfg.refreshReplayWindow
          refreshHash := tok.hashRefreshSecret (tok.deriveNextRefreshSecret rot.secret)
          lastActiveAt := rot.now })
        (congrArg some hpresented) rfl ⟨rfl, rfl, rfl, rfl, rfl⟩
      exact ⟨hok, hguar, hv, nofun, mem_append_right _ mem_cons_self⟩
    · split <;> exact keeps_same h trivial
  | confirm session =>
    simp only [moveRotate]
    split_ifs
    · exact keeps_same h trivial
    · exact keeps_same h ⟨rfl, hpc⟩
    · exact keeps_same h trivial
  | revoke session =>
    obtain ⟨hv, hissued, hfinds⟩ := hpc
    simp only [moveRotate]
    split_ifs with hheld hdb hmatch
    · exact keeps_same h ⟨hv, hissued, hfinds⟩
    · exact keeps_same h trivial
    · obtain ⟨hok, hguar⟩ := @chain_revoke _ _ tok first v sh h rot.now "refresh_reuse"
        (some rot.secret) (by rintro x ⟨⟩; exact hissued)
      exact ⟨hok, hguar, hv, nofun, trivial⟩
    · exact keeps_same h trivial

include h in
theorem moveRevoke_keeps {userID : Int} {reason : String} {pc : RevokePc Hash}
    (hpc : PcKnows tok first v sh (.revoke caller userID reason pc)) :
    Keeps tok first v sh (moveRevoke sh env caller userID reason pc) := by
  cases pc with simp only [moveRevoke]
  | clock =>
    split_ifs
    · exact keeps_same h (knows_revokeReturns caller trivial)
    · exact keeps_same h hpc
  | row now =>
    split_ifs
    · exact keeps_same h (knows_revokeReturns caller trivial)
    · exact keeps_same h (knows_revokeReturns caller trivial)
    · exact keeps_same h ⟨h.version, nofun, h.version, hpc⟩
  | tx now candidate =>
    split_ifs
    · exact keeps_same h hpc
    · exact keeps_same h (knows_revokeReturns caller trivial)
    · obtain ⟨hok, hguar⟩ := chain_revoke h now reason hpc.2
      exact ⟨hok, hguar, hpc.1, nofun, trivial⟩
    · exact keeps_same h (knows_revokeReturns caller trivial)

/-- The fence of a replay is never refused: there is one version, and it is a deny entry. -/
theorem fence_written (hpos : 0 < v) (h : ChainOk tok first v sh) (hv : entry.version = v)
    (hdeny : entry.status ≠ .active) (expiration : Expiration) :
    (runScript sh.cache entry expiration sh.clock).2 = true := by
  rcases runScript_cases sh.cache sh.clock (hv ▸ hpos) expiration with
    ⟨-, -, e, he, hrefused⟩ | ⟨hwritten, -⟩
  · obtain ⟨k, hk, hif⟩ := Option.bind_eq_some_iff.mp he
    split_ifs at hif
    have hkv := h.key k hk
    rw [Option.some.inj hif] at hkv
    rcases hrefused with hlt | ⟨hactive, -⟩
    · omega
    · exact absurd hactive hdeny
  · exact hwritten

variable [DecidableEq Hash]

theorem move_keeps (hideal : Ideal tok first) (h : ChainOk tok first v sh) (hpc : PcKnows tok first v sh pc)
    (hset : Settled tok first sh env pc) : Keeps tok first v sh (move cfg tok i sh env pc) := by
  cases pc with
  | idle => exact keeps_same h trivial
  | returned answer => exact keeps_same h hpc
  | read caller pc => exact keeps_same h (moveRead_knows h hpc)
  | refresh secret pc => exact keeps_same h (moveRefresh_knows hset)
  | rotate rot pc => exact moveRotate_keeps hideal h hpc
  | advance | revokeHash | revokeAll => exact hpc.elim
  | revoke caller userID reason pc => exact moveRevoke_keeps h hpc
  | revokeDone caller =>
    exact ⟨⟨h.rotations, h.current, h.previous, h.version, h.key, h.unlocked, h.revokedBy⟩,
      ⟨⟨[], by simp [move]⟩, id, fun _ => ⟨rfl, rfl, rfl⟩⟩, knows_revokeReturns caller trivial⟩
  | write entry deadline stage cont => exact moveWrite_keeps h hpc

/-! ### A replayed token -/

theorem replaying_move (hpos : 0 < v) (h : ChainOk tok first v sh) (hpc : PcKnows tok first v sh pc)
    (hr : Replaying pc) :
    (move cfg tok i sh env pc).1.row.status ≠ .active ∨ Replaying (move cfg tok i sh env pc).2 := by
  cases pc with
  | returned answer => exact .inr hr
  | rotate rot pc =>
    cases pc with
    | revoke session =>
      obtain ⟨-, -, hfinds⟩ := hpc
      simp only [move, moveRotate]
      split_ifs with hheld hdb hmatch
      · exact .inr trivial
      · exact .inr trivial
      · exact .inl (by simp [Shared.revokeRow, revoke])
      · exact .inl fun hactive => hmatch (hfinds hactive)
    | _ => exact hr.elim
  | write entry deadline stage cont =>
    cases cont with
    | reuseFence rot session =>
      obtain ⟨hv, hstage, -, -, -, hdeny⟩ := hpc
      right
      cases stage with
      | prepare =>
        simp only [move, moveWrite]
        split_ifs
        · trivial
        · obtain ⟨expiration, hok⟩ := expirationOf_deny_ok cfg hdeny deadline sh.clock
          rw [hok]
          trivial
      | send expiration =>
        simp only [move, moveWrite]
        split
        · trivial
        · trivial
        · rw [fence_written hpos h hv hdeny expiration]
          simp only [if_neg hdeny]
          trivial
      | complete => exact absurd (hstage rfl) hdeny
    | _ => exact hr.elim
  | _ => exact hr.elim

theorem replaying_of_replays (hr : replays tok sh env pc = true) : Replaying (move cfg tok i sh env pc).2 := by
  cases pc with
  | rotate rot pc =>
    cases pc with
    | row left deadline =>
      simp only [replays, Bool.and_eq_true, Bool.not_eq_true', decide_eq_true_eq] at hr
      obtain ⟨⟨⟨⟨⟨hdb, huser⟩, hlive⟩, hcurrent⟩, hprevious⟩, hgrace⟩ := hr
      have hnot : ¬ rot.now ≤ sh.row.previousValidUntil := by omega
      simp only [move, moveRotate, hdb, huser, hlive, hcurrent, hprevious, hnot, ne_eq, not_true,
        if_false, Bool.false_eq_true, Bool.true_eq_false]
      trivial
    | _ => cases hr
  | _ => cases hr

end Moves

/-! ### Runs of refreshes -/

section Runs

variable {tok : Tokens Secret Hash} {first : Secret} {cfg : Config}

structure Created (tok : Tokens Secret Hash) (first : Secret) (s : Sys Secret Hash) : Prop where
  current : s.shared.row.refreshHash = tok.hashRefreshSecret first
  previous : s.shared.row.previousRefreshHash = none
  version : 0 < s.shared.row.version
  key : ∀ k, s.shared.cache = some k → k.entry.version = s.shared.row.version
  unlocked : s.shared.lock = none
  history : s.shared.rotations = [] ∧ s.shared.revokedBy = none
  idle : ∀ i, s.thread i = ⟨.idle, false, false⟩

def Refreshes (tok : Tokens Secret Hash) (first : Secret) (s : Sys Secret Hash) :
    Action Secret Hash → Prop
  | .begin _ (.refresh _) => True
  | .begin _ _ => False
  | .move i env => Settled tok first s.shared env (s.thread i).pc
  | .tick _ => True

instance [DecidableEq Secret] (sh : Shared Secret Hash) (env : Env) (pc : Pc Secret Hash) :
    Decidable (Settled tok first sh env pc) :=
  match pc with
  | .refresh secret (.user session) =>
    inferInstanceAs (Decidable (secret ∈ issued tok first sh ∨ userUnchanged env session = true))
  | .refresh _ (.check _) | .refresh _ (.clock _) | .idle | .returned _ | .read _ _ | .rotate _ _ | .advance _ _
  | .revoke _ _ _ _ | .revokeHash _ _ _ | .revokeAll _ _ _ | .revokeDone _ | .write _ _ _ _ => isTrue trivial

instance [DecidableEq Secret] (s : Sys Secret Hash) (a : Action Secret Hash) :
    Decidable (Refreshes tok first s a) :=
  match a with
  | .begin _ (.refresh _) | .tick _ => isTrue trivial
  | .begin _ .read | .begin _ (.advance _) | .begin _ (.revoke _ _) | .begin _ (.revokeHash _ _)
  | .begin _ (.revokeAll _ _) => isFalse id
  | .move i env => inferInstanceAs (Decidable (Settled tok first s.shared env (s.thread i).pc))

structure OneWinner (tok : Tokens Secret Hash) (first : Secret) (s : Sys Secret Hash) : Prop where
  /-- Each presented hash is rotated at most once. -/
  once : (s.shared.rotations.map Prod.fst).Nodup
  /-- The row holds two consecutive links of the chain. -/
  chain : ∃ n, s.shared.row.refreshHash = tok.hashRefreshSecret (link tok first n) ∧
    s.shared.row.previousRefreshHash = previousHash tok first n
  /-- A call that succeeds returns the secret that the rotation of its hash led to. -/
  same : ∀ i secret next, (s.thread i).pc = .returned (.refreshed secret next) →
    next = tok.deriveNextRefreshSecret secret ∧
      (tok.hashRefreshSecret secret, tok.hashRefreshSecret next) ∈ s.shared.rotations
  /-- A call that presented the previous token after the grace window has revoked the session when it
  returns, or reports a failure. -/
  replay : ∀ i answer, (s.thread i).replayed = true → (s.thread i).pc = .returned answer →
    s.shared.row.status ≠ .active ∨ ∃ fault, answer = .failed fault
  /-- The token of a call that revoked the session was issued. -/
  forged : ∀ secret, s.shared.revokedBy = some secret → secret ∈ issued tok first s.shared

variable {s : Sys Secret Hash}

theorem holds_created (h : Created tok first s) :
    Threads.Holds (ChainOk tok first s.shared.row.version) (Knows tok first s.shared.row.version) s := by
  obtain ⟨hrotations, hrevokedBy⟩ := h.history
  refine ⟨⟨?_, ?_, ?_, rfl, h.key, h.unlocked, ?_⟩, fun i => ?_⟩
  · rw [hrotations]
    rfl
  · rw [hrotations]
    exact h.current
  · rw [hrotations]
    exact h.previous
  · intro x hx
    rw [hrevokedBy] at hx
    cases hx
  · rw [h.idle i]
    refine ⟨trivial, fun hr => ?_⟩
    cases hr

variable [DecidableEq Hash]

theorem step_knows (hideal : Ideal tok first) {v : Int} (hpos : 0 < v)
    {a : Action Secret Hash} (h : Threads.Holds (ChainOk tok first v) (Knows tok first v) s)
    (ha : Refreshes tok first s a) : Threads.Holds (ChainOk tok first v) (Knows tok first v) (step cfg tok s a) := by
  cases a with
  | begin i call =>
    cases call with
    | refresh secret =>
      simp only [step]
      split
      · refine h.put knows_stable h.shared ⟨trivial, fun hr => ?_⟩ (ChainGuar.refl s.shared)
        cases hr
      · exact h
    | _ => exact ha.elim
  | move i env =>
    obtain ⟨hpc, hreplay⟩ := h.thread i
    have hkeeps := @move_keeps _ _ tok first v s.shared cfg env _ i _ hideal h.shared hpc ha
    refine h.put knows_stable hkeeps.shared ⟨hkeeps.pc, fun hr => ?_⟩ hkeeps.guar
    rcases Bool.or_eq_true_iff.mp hr with hbefore | hnow
    · rcases hreplay hbefore with hdead | hphase
      · exact .inl (hkeeps.guar.dead hdead)
      · exact replaying_move hpos h.shared hpc hphase
    · exact .inr (replaying_of_replays hnow)
  | tick ms =>
    refine h.pass ⟨h.shared.rotations, h.shared.current, h.shared.previous, h.shared.version,
      h.shared.key, h.shared.unlocked, h.shared.revokedBy⟩ fun {i th} hok => ?_
    exact knows_stable i (i + 1) _ _ _ (Nat.succ_ne_self i).symm ⟨⟨[], by simp⟩, id, fun _ => ⟨rfl, rfl, rfl⟩⟩ hok

/-- **One winner**: in every run of refreshes each hash is rotated once, the row holds consecutive links of one
chain, and a replayed token revokes the session; if tokens that were not issued meet an unchanged user, none
of them revokes it. -/
theorem refresh_one_winner (hideal : Ideal tok first) {s : Sys Secret Hash}
    (hcreated : Created tok first s) {as : List (Action Secret Hash)}
    (h : StepSys.Along (step cfg tok) (Refreshes tok first) s as) :
    OneWinner tok first (StepSys.run (step cfg tok) s as) := by
  have hholds := run_inv (fun s a hI hP => step_knows hideal hcreated.version hI hP)
    (holds_created hcreated) h
  generalize run (step cfg tok) s as = t at hholds
  refine ⟨?_, ⟨_, hholds.shared.current, hholds.shared.previous⟩, ?_, ?_,
    hholds.shared.revokedBy⟩
  · rw [hholds.shared.rotations, map_map]
    refine List.Nodup.map (fun m n heq => ?_) nodup_range
    exact hideal.link_injective (hideal.hash heq)
  · intro i secret next hpc
    have hknows := (hholds.thread i).1
    rw [hpc] at hknows
    exact hknows
  · intro i answer hr hpc
    rcases (hholds.thread i).2 hr with hdead | hphase
    · exact .inl hdead
    · rw [hpc] at hphase
      cases answer with
      | failed fault => exact .inr ⟨fault, rfl⟩
      | _ => exact hphase.elim

end Runs

/-! ### A token that was never issued -/

section Forged

theorem countingTokens_ideal : Ideal countingTokens 0 :=
  ⟨fun _ _ h => h, Nat.succ_injective, Nat.succ_ne_zero⟩

theorem freshSys_created : Created countingTokens 0 freshSys := by
  refine ⟨rfl, rfl, by decide, fun k hk => ?_, rfl, ⟨rfl, rfl⟩, fun _ => rfl⟩
  cases hk

def threeTimes : List (Action ℕ ℕ) :=
  .begin 0 (.refresh 0) :: moves 0 17 answered ++ .begin 1 (.refresh 0) :: moves 1 7 answered ++
    [.tick 40000] ++ .begin 2 (.refresh 0) :: moves 2 15 answered

theorem refresh_one_winner_three_times :
    let s := run (step sixtySeconds countingTokens) freshSys threeTimes
    (s.thread 0).pc = .returned (.refreshed 0 1) ∧ (s.thread 1).pc = .returned (.refreshed 0 1) ∧
      (s.thread 2).replayed = true ∧ s.shared.row.status = .revoked ∧
      OneWinner countingTokens 0 s :=
  ⟨by decide, by decide, by decide, by decide,
    refresh_one_winner countingTokens_ideal freshSys_created (by decide)⟩

def userAdvanced : Env := ⟨false, .up, some ⟨true, 2⟩, some ⟨true, 2⟩⟩

/-- Secret `99` was never issued, and the call that presents it revokes the session. -/
theorem forged_token_revokes :
    let s := StepSys.run (step sixtySeconds countingTokens) freshSys
      (.begin 0 (.refresh 99) :: moves 0 18 userAdvanced)
    s.shared.row.status = .revoked ∧ s.shared.row.revokedReason = "user_security_changed" ∧
      s.shared.revokedBy = some 99 ∧ ¬ OneWinner countingTokens 0 s := by
  intro s
  have hby : s.shared.revokedBy = some 99 := by decide
  refine ⟨by decide, by decide, hby, fun hwinner => ?_⟩
  have hissued := hwinner.forged 99 hby
  revert hissued
  decide

end Forged

end WynthApi.Auth
