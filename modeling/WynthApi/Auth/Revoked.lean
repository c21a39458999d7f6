import WynthApi.Auth.Calls

/-!
# A revoked session is not served again

An active snapshot is taken under a deadline from before the row was read, so once the row is revoked no snapshot
outlives that moment by more than the cache's time to live (`bound`).  The tombstone of a revocation lives at least as
long, or until the session is over: the cache is then sealed (`Sealed`), and what starts later finds a deny entry,
nothing, or the revoked row.

The tombstone can only be refused for its version, which `RevokeUserSession` takes from the row it read before its
transaction: `revoked_never_served` asks that it is still the row's.
-/

namespace WynthApi.Auth

open UserSession StepSys

variable {Secret Hash : Type} {cfg : Config} {sh sh' : Shared Secret Hash} {i j : ℕ}

/-! ### What is known of the shared state -/

variable {session : UserSession Hash}

section Invariant

variable (cfg sh)

/-- No active snapshot of the row has a later deadline. -/
def bound : Int :=
  (if sh.row.status = .active then sh.clock else sh.revokedClock) + cfg.ttl

/-- From here on an active entry of the revoked session has expired, or the session has. -/
def fenceEnd : Int :=
  min (sh.revokedClock + cfg.ttl) (atUnix sh.row.expiresAt)

/-- The row is revoked, and a deny entry stands in the cache as long as it is needed. -/
structure Sealed : Prop where
  dead : sh.row.status ≠ .active
  closed : cfg.redisEnabled = false ∨ fenceEnd cfg sh ≤ sh.clock ∨
    ∃ k, sh.cache = some k ∧ k.entry.status ≠ .active ∧ fenceEnd cfg sh ≤ k.expires

structure SharedOk : Prop where
  version : 0 < sh.row.version
  died : sh.row.status ≠ .active → sh.revokedClock ≤ sh.clock
  key : ∀ k, sh.cache = some k → k.entry.version ≤ sh.row.version ∧
    k.entry.expiresAt = sh.row.expiresAt ∧ (k.entry.status = .active → k.expires ≤ bound cfg sh)
  returned : sh.revokeReturned = true → Sealed cfg sh

variable {cfg sh}

/-- What a move of thread `j` leaves to the others. -/
structure Guar (cfg : Config) (j : ℕ) (sh sh' : Shared Secret Hash) : Prop where
  clock : sh.clock ≤ sh'.clock
  expires : sh'.row.expiresAt = sh.row.expiresAt
  version : sh.row.version ≤ sh'.row.version
  bound : bound cfg sh ≤ bound cfg sh'
  frozen : sh.row.status ≠ .active → sh'.row = sh.row
  sealed : Sealed cfg sh → Sealed cfg sh'
  locked : ∀ i, i ≠ j → sh.lock = some i → sh'.row = sh.row ∧ sh'.lock = sh.lock

theorem Guar.refl (cfg : Config) (j : ℕ) (sh : Shared Secret Hash) : Guar cfg j sh sh :=
  ⟨le_refl _, rfl, le_refl _, le_refl _, fun _ => rfl, id, fun _ _ _ => ⟨rfl, rfl⟩⟩

def SessionOk (sh : Shared Secret Hash) (session : UserSession Hash) : Prop :=
  0 < session.version ∧ session.version ≤ sh.row.version ∧ session.expiresAt = sh.row.expiresAt

def EntryOk (sh : Shared Secret Hash) (entry : CacheEntry) : Prop :=
  0 < entry.version ∧ entry.version ≤ sh.row.version ∧ entry.expiresAt = sh.row.expiresAt

theorem SessionOk.mono (h : SessionOk sh session) (hg : Guar cfg j sh sh') : SessionOk sh' session :=
  ⟨h.1, h.2.1.trans hg.version, h.2.2.trans hg.expires.symm⟩

theorem EntryOk.mono {entry : CacheEntry} (h : EntryOk sh entry) (hg : Guar cfg j sh sh') : EntryOk sh' entry :=
  ⟨h.1, h.2.1.trans hg.version, h.2.2.trans hg.expires.symm⟩

theorem sessionOk_row (h : SharedOk cfg sh) : SessionOk sh sh.row := ⟨h.version, le_refl _, rfl⟩

def ExpirationOk (cfg : Config) (sh : Shared Secret Hash) (entry : CacheEntry)
    (expiration : Expiration) : Prop :=
  (entry.status = .active → ∃ ms, expiration = .at ms ∧ ms ≤ bound cfg sh) ∧
  (entry.status ≠ .active → ∃ ms, expiration = .after ms ∧ ∀ later, sh.clock ≤ later →
    atUnix entry.expiresAt ≤ later ∨ min (atUnix entry.expiresAt) (later + cfg.ttl) ≤ later + ms)

theorem ExpirationOk.mono {entry : CacheEntry} {expiration : Expiration}
    (h : ExpirationOk cfg sh entry expiration) (hg : Guar cfg j sh sh') : ExpirationOk cfg sh' entry expiration := by
  refine ⟨fun hactive => ?_, fun hdeny => ?_⟩
  · obtain ⟨ms, heq, hle⟩ := h.1 hactive
    exact ⟨ms, heq, hle.trans hg.bound⟩
  · obtain ⟨ms, heq, hlater⟩ := h.2 hdeny
    exact ⟨ms, heq, fun later hle => hlater later (hg.clock.trans hle)⟩

end Invariant

/-! ### What the moves do to it -/

variable {cache : Option Key} {e : CacheEntry}

section Effects

section

variable (h : SharedOk cfg sh)

include h

theorem row_effect (hactive : sh.row.status = .active)
    (hlock : sh.lock = none) {r : UserSession Hash} {l : List (Hash × Hash)}
    (hr : r.status = .active) (hexp : r.expiresAt = sh.row.expiresAt) (hver : sh.row.version ≤ r.version) :
    SharedOk cfg { sh with row := r, rotations := l } ∧ Guar cfg j sh { sh with row := r, rotations := l } := by
  have hbound : bound cfg { sh with row := r, rotations := l } = bound cfg sh := by
    simp only [bound, hr, hactive, if_true]
  refine ⟨⟨?_, ?_, ?_, ?_⟩, ⟨le_refl _, hexp, hver, hbound.ge, ?_, ?_, ?_⟩⟩
  · exact lt_of_lt_of_le h.version hver
  · exact fun hdead => absurd hr hdead
  · intro k hk
    obtain ⟨h1, h2, h3⟩ := h.key k hk
    exact ⟨h1.trans hver, h2.trans hexp.symm, fun ha => hbound ▸ h3 ha⟩
  · exact fun hret => absurd hactive (h.returned hret).dead
  · exact fun hdead => absurd hactive hdead
  · exact fun hs => absurd hactive hs.dead
  · intro i _ hi
    rw [hlock] at hi
    cases hi

theorem revoke_effect (hactive : sh.row.status = .active)
    (hlock : ∀ i, i ≠ j → sh.lock ≠ some i) (now : Int) (reason : String) (secret : Option Secret) :
    SharedOk cfg (sh.revokeRow now reason secret) ∧ Guar cfg j sh (sh.revokeRow now reason secret) := by
  have hbound : bound cfg (sh.revokeRow now reason secret) = bound cfg sh := by
    simp [bound, Shared.revokeRow, revoke, hactive]
  refine ⟨⟨h.version, fun _ => le_refl _, ?_, ?_⟩, ⟨le_refl _, rfl, le_refl _, hbound.ge, ?_, ?_, ?_⟩⟩
  · intro k hk
    obtain ⟨h1, h2, h3⟩ := h.key k hk
    exact ⟨h1, h2, fun ha => hbound ▸ h3 ha⟩
  · exact fun hret => absurd hactive (h.returned hret).dead
  · exact fun hdead => absurd hactive hdead
  · exact fun hs => absurd hactive hs.dead
  · exact fun i hi hheld => absurd hheld (hlock i hi)

theorem lock_effect (hlock : ∀ i, i ≠ j → sh.lock ≠ some i) (lock : Option ℕ) :
    SharedOk cfg { sh with lock } ∧ Guar cfg j sh { sh with lock } :=
  ⟨⟨h.version, h.died, h.key, fun hret => ⟨(h.returned hret).dead, (h.returned hret).closed⟩⟩,
    ⟨le_refl _, rfl, le_refl _, le_refl _, fun _ => rfl, fun hs => ⟨hs.dead, hs.closed⟩,
      fun i hi hheld => absurd hheld (hlock i hi)⟩⟩

theorem returned_effect (hs : Sealed cfg sh) :
    SharedOk cfg { sh with revokeReturned := true } ∧ Guar cfg j sh { sh with revokeReturned := true } :=
  ⟨⟨h.version, h.died, h.key, fun _ => ⟨hs.dead, hs.closed⟩⟩,
    ⟨le_refl _, rfl, le_refl _, le_refl _, fun _ => rfl, fun hs => ⟨hs.dead, hs.closed⟩,
      fun _ _ _ => ⟨rfl, rfl⟩⟩⟩

end

theorem visible_some {clock : Int}
    (h : visible cache clock = some e) : ∃ k, cache = some k ∧ k.entry = e ∧ clock < k.expires := by
  obtain ⟨k, hk, hif⟩ := Option.bind_eq_some_iff.mp h
  split_ifs at hif with hlt
  exact ⟨k, hk, Option.some.inj hif, hlt⟩

variable {expiration : Expiration} {entry : CacheEntry}

theorem deny_covers (h : SharedOk cfg sh) (hdead : sh.row.status ≠ .active) (hentry : EntryOk sh entry)
    {ms : Int} (hlater : ∀ later, sh.clock ≤ later → atUnix entry.expiresAt ≤ later ∨
      min (atUnix entry.expiresAt) (later + cfg.ttl) ≤ later + ms) :
    fenceEnd cfg sh ≤ sh.clock ∨ fenceEnd cfg sh ≤ sh.clock + ms := by
  have hdied := h.died hdead
  have hnow := hlater sh.clock (le_refl _)
  rw [hentry.2.2] at hnow
  unfold fenceEnd
  omega

theorem tombstone_seals (h : SharedOk cfg sh) (hdead : sh.row.status ≠ .active) (hentry : EntryOk sh entry)
    (hexp : ExpirationOk cfg sh entry expiration) (hversion : entry.version = sh.row.version)
    (hdeny : entry.status ≠ .active) :
    Sealed cfg { sh with cache := (runScript sh.cache entry expiration sh.clock).1 } := by
  refine ⟨hdead, ?_⟩
  obtain ⟨ms, rfl, hlater⟩ := hexp.2 hdeny
  rcases runScript_cases sh.cache sh.clock hentry.1 (.after ms) with ⟨-, -, e, he, hrefused⟩ | ⟨-, -, hwritten⟩
  · obtain ⟨k, hk, rfl, -⟩ := visible_some he
    have hle := (h.key k hk).1
    rcases hrefused with hlt | ⟨hactive, -⟩
    · omega
    · exact absurd hactive hdeny
  · rcases hwritten with ⟨ms', heq, -⟩ | ⟨ms', heq, -⟩ | ⟨ms', heq, hcache⟩
    · cases heq
    · cases heq
    · cases heq
      rcases deny_covers h hdead hentry hlater with hover | hlong
      · exact .inr (.inl hover)
      · exact .inr (.inr ⟨_, hcache, hdeny, hlong⟩)

theorem Sealed.write (hs : Sealed cfg sh) (h : SharedOk cfg sh) (hentry : EntryOk sh entry)
    (hexp : ExpirationOk cfg sh entry expiration) :
    Sealed cfg { sh with cache := (runScript sh.cache entry expiration sh.clock).1 } := by
  refine ⟨hs.dead, ?_⟩
  rcases hs.closed with hoff | hover | ⟨k, hk, hkdeny, hlong⟩
  · exact .inl hoff
  · exact .inr (.inl hover)
  by_cases hover : fenceEnd cfg sh ≤ sh.clock
  · exact .inr (.inl hover)
  -- the deny entry is still visible, so only another deny entry can take its place
  have hvisible : visible sh.cache sh.clock = some k.entry := by
    have hlt : sh.clock < k.expires := by omega
    simp [visible, hk, hlt]
  rcases runScript_cases sh.cache sh.clock hentry.1 expiration with ⟨hsame, -⟩ | ⟨-, hover', hwritten⟩
  · exact .inr (.inr ⟨k, hsame.trans hk, hkdeny, hlong⟩)
  · have hdeny : entry.status ≠ .active := fun hactive =>
      hkdeny ((hover' k.entry hvisible).2 hactive)
    obtain ⟨ms, rfl, hlater⟩ := hexp.2 hdeny
    rcases hwritten with ⟨ms', heq, -⟩ | ⟨ms', heq, -⟩ | ⟨ms', heq, hcache⟩
    · cases heq
    · cases heq
    · cases heq
      rcases deny_covers h hs.dead hentry hlater with hover | hlong'
      · exact .inr (.inl hover)
      · exact .inr (.inr ⟨_, hcache, hdeny, hlong'⟩)

theorem cache_effect (h : SharedOk cfg sh) (hentry : EntryOk sh entry) (hexp : ExpirationOk cfg sh entry expiration) :
    SharedOk cfg { sh with cache := (runScript sh.cache entry expiration sh.clock).1 } ∧
      Guar cfg j sh { sh with cache := (runScript sh.cache entry expiration sh.clock).1 } := by
  refine ⟨⟨h.version, h.died, fun k hk => ?_, fun hret => (h.returned hret).write h hentry hexp⟩,
    ⟨le_refl _, rfl, le_refl _, le_refl _, fun _ => rfl, fun hs => hs.write h hentry hexp, fun _ _ _ => ⟨rfl, rfl⟩⟩⟩
  have hnew : k.entry = entry → (entry.status = .active → k.expires ≤ bound cfg sh) →
      k.entry.version ≤ sh.row.version ∧ k.entry.expiresAt = sh.row.expiresAt ∧
        (k.entry.status = .active → k.expires ≤ bound cfg sh) := by
    rintro rfl hbound
    exact ⟨hentry.2.1, hentry.2.2, hbound⟩
  rcases runScript_cases sh.cache sh.clock hentry.1 expiration with ⟨hsame, -⟩ | ⟨-, -, hwritten⟩
  · exact h.key k (hsame.symm.trans hk)
  · rcases hwritten with ⟨ms, -, -, hnone⟩ | ⟨ms, rfl, -, hsome⟩ | ⟨ms, rfl, hsome⟩
    · rw [hnone] at hk
      cases hk
    · rw [hsome] at hk
      cases hk
      refine hnew rfl fun hactive => ?_
      obtain ⟨ms', heq, hle⟩ := hexp.1 hactive
      cases heq
      exact hle
    · rw [hsome] at hk
      cases hk
      refine hnew rfl fun hactive => ?_
      obtain ⟨ms', heq, -⟩ := hexp.1 hactive
      cases heq

end Effects

/-! ### What a thread knows -/

variable {now : Int}

section Knowledge

variable {entry : CacheEntry}

def Cont.tombstone : Cont Secret Hash → Bool
  | .revokeDone _ | .hashDone | .allDone _ => true
  | _ => false

variable (cfg sh i entry)

def StageOk : WriteStage → Prop
  | .prepare => True
  | .send expiration => ExpirationOk cfg sh entry expiration
  | .complete => entry.status = .active

def ContOk : Cont Secret Hash → Prop
  | .reuseFence _ session => SessionOk sh session
  | .revokeFence _ _ candidate => SessionOk sh candidate
  | .hashFence _ _ session => sh.lock = some i ∧ session = sh.row
  | .allFence _ done => done = true → Sealed cfg sh
  | .revokeDone _ | .hashDone | .allDone _ =>
    sh.row.status ≠ .active ∧ entry.version = sh.row.version ∧ entry.status ≠ .active
  | _ => True

structure WriteOk (deadline : Option Int) (stage : WriteStage) (cont : Cont Secret Hash) : Prop where
  snapshot : EntryOk sh entry
  due : entry.status = .active → ∀ d, deadline = some d → d ≤ bound cfg sh
  staged : StageOk cfg sh entry stage
  next : ContOk cfg sh i entry cont

/-- What thread `i` knows at its place. -/
def PcOk : Pc Secret Hash → Prop
  | .read _ (.row deadline) => deadline ≤ sh.clock + cfg.ttl
  | .read _ (.check deadline session) =>
    SessionOk sh session ∧ (session.status = .active → deadline ≤ bound cfg sh)
  | .rotate _ (.row _ deadline) => deadline ≤ sh.clock + cfg.ttl
  | .rotate _ (.swap _ deadline session) => SessionOk sh session ∧ session.status = .active ∧
    deadline ≤ bound cfg sh
  | .rotate _ (.revoke session) => SessionOk sh session
  | .advance _ (.clock deadline) => deadline ≤ sh.clock + cfg.ttl
  | .advance _ (.tx deadline _) => deadline ≤ sh.clock + cfg.ttl
  | .revoke _ _ _ (.tx _ candidate) => SessionOk sh candidate
  | .revokeHash _ _ (.update _ session) => sh.lock = some i ∧ session = sh.row
  | .revokeHash _ _ (.rollback _) => sh.lock = some i
  | .revokeAll _ _ (.row _ done) => done = true → Sealed cfg sh
  | .revokeAll _ _ (.tx _ done) => done = true → Sealed cfg sh
  | .revokeDone _ => Sealed cfg sh
  | .write entry deadline stage cont => WriteOk cfg sh i entry deadline stage cont
  | _ => True

def Served : Pc Secret Hash → Prop
  | .returned (.session _) => True
  | .refresh _ _ => True
  | _ => False

/-- What a call that started after a revocation holds in its hands: nothing active. -/
def LateOk (sh : Shared Secret Hash) : Pc Secret Hash → Prop
  | .read _ (.reply (some entry)) => entry.live (unix sh.clock) = false
  | .read _ (.check _ session) => session.status ≠ .active
  | .read _ (.confirm _) => False
  | .write _ _ _ (.fill _ _) => False
  | pc => ¬ Served pc

def Ok (th : Thread Secret Hash) : Prop :=
  PcOk cfg sh i th.pc ∧ (th.late = true → Sealed cfg sh ∧ LateOk sh th.pc)

variable {cfg sh i entry} {deadline : Option Int} {stage : WriteStage} {cont : Cont Secret Hash}
  {pc : Pc Secret Hash}

theorem ContOk.stable (hij : i ≠ j) (hg : Guar cfg j sh sh') (h : ContOk cfg sh i entry cont) :
    ContOk cfg sh' i entry cont := by
  cases cont with
  | reuseFence rot session => exact SessionOk.mono h hg
  | revokeFence caller rv candidate => exact SessionOk.mono h hg
  | hashFence presentedHash rv session =>
    obtain ⟨hrow, hlock⟩ := hg.locked i hij h.1
    exact ⟨hlock.trans h.1, h.2.trans hrow.symm⟩
  | allFence rv done => exact fun hdone => hg.sealed (h hdone)
  | revokeDone caller | hashDone | allDone rv =>
    have hrow := hg.frozen h.1
    simp only [ContOk, hrow]
    exact h
  | _ => trivial

theorem WriteOk.stable (hij : i ≠ j) (hg : Guar cfg j sh sh')
    (h : WriteOk cfg sh i entry deadline stage cont) : WriteOk cfg sh' i entry deadline stage cont := by
  refine ⟨h.snapshot.mono hg, fun ha d hd => (h.due ha d hd).trans hg.bound, ?_, h.next.stable hij hg⟩
  have hstage := h.staged
  cases stage with
  | prepare => trivial
  | send expiration => exact ExpirationOk.mono hstage hg
  | complete => exact hstage

theorem PcOk.stable (hij : i ≠ j) (hg : Guar cfg j sh sh') (h : PcOk cfg sh i pc) : PcOk cfg sh' i pc := by
  have hclock := hg.clock
  have hbound := hg.bound
  unfold PcOk at h ⊢
  split at h
  · exact h.trans (by omega)
  · exact ⟨h.1.mono hg, fun ha => (h.2 ha).trans hbound⟩
  · exact h.trans (by omega)
  · exact ⟨h.1.mono hg, h.2.1, h.2.2.trans hbound⟩
  · exact SessionOk.mono h hg
  · exact h.trans (by omega)
  · exact h.trans (by omega)
  · exact SessionOk.mono h hg
  · obtain ⟨hrow, hlock⟩ := hg.locked i hij h.1
    exact ⟨hlock.trans h.1, h.2.trans hrow.symm⟩
  · exact (hg.locked i hij h).2.trans h
  · exact fun hdone => hg.sealed (h hdone)
  · exact fun hdone => hg.sealed (h hdone)
  · exact hg.sealed h
  · exact WriteOk.stable hij hg h
  · trivial

theorem live_mono {later : Int} (hle : now ≤ later) (h : entry.live now = false) : entry.live later = false := by
  unfold CacheEntry.live at h ⊢
  simp only [Bool.and_eq_false_iff, decide_eq_false_iff_not] at h ⊢
  rcases h with h | h
  · exact .inl h
  · exact .inr (by omega)

theorem LateOk.mono (hclock : sh.clock ≤ sh'.clock) (h : LateOk sh pc) : LateOk sh' pc := by
  have hunix : unix sh.clock ≤ unix sh'.clock := by
    unfold unix
    omega
  unfold LateOk at h ⊢
  split at h
  · exact live_mono hunix h
  all_goals exact h

theorem ok_stable : Threads.Stable (@Ok Secret Hash cfg) (Guar cfg) := by
  intro i j sh sh' th hij hg h
  exact ⟨h.1.stable hij hg, fun hlate => ⟨hg.sealed (h.2 hlate).1, (h.2 hlate).2.mono hg.clock⟩⟩

end Knowledge

/-! ### Every move keeps it -/

variable {caller : Caller Secret}

section Moves

variable {tok : Tokens Secret Hash} {env : Env}

/-- A move's outcome: the shared state is in order, the others lose nothing, and the thread knows what
its new place asks for. -/
structure Good (cfg : Config) (i : ℕ) (sh : Shared Secret Hash)
    (r : Shared Secret Hash × Pc Secret Hash) : Prop where
  shared : SharedOk cfg r.1
  guar : Guar cfg i sh r.1
  pc : PcOk cfg r.1 i r.2

theorem good_same (h : SharedOk cfg sh) {pc : Pc Secret Hash} (hpc : PcOk cfg sh i pc) :
    Good cfg i sh (sh, pc) := ⟨h, Guar.refl cfg i sh, hpc⟩

theorem pcOk_readReturns (caller : Caller Secret) (entry : Option CacheEntry) :
    PcOk cfg sh i (readReturns caller entry) := by
  cases caller <;> cases entry <;> trivial

theorem pcOk_readFails (caller : Caller Secret) (fault : Fault) : PcOk cfg sh i (readFails caller fault) := by
  cases caller <;> trivial

theorem pcOk_revokeReturns (caller : Caller Secret) (answer : Answer Secret) :
    PcOk cfg sh i (revokeReturns caller answer) := by
  cases caller <;> trivial

variable {deadline : Option Int} {entry : CacheEntry} {reason : String} {cont : Cont Secret Hash}

theorem pcOk_write {stage : WriteStage} (h : WriteOk cfg sh i entry deadline stage cont) :
    PcOk cfg sh i (.write entry deadline stage cont) := h

theorem ContOk.of_tombstone (h : ContOk cfg sh i entry cont) (ht : cont.tombstone = true) :
    sh.row.status ≠ .active ∧ entry.version = sh.row.version ∧ entry.status ≠ .active := by
  cases cont <;> first | exact h | cases ht

theorem ContOk.write (h : ContOk cfg sh i entry cont) (hseal : Sealed cfg sh → Sealed cfg { sh with cache }) :
    ContOk cfg { sh with cache } i entry cont := by
  cases cont with
  | allFence rv done => exact fun hdone => hseal (h hdone)
  | _ => exact h

theorem expirationOk_of {expiration : Expiration}
    (hdue : entry.status = .active → ∀ d, deadline = some d → d ≤ bound cfg sh)
    (h : expirationOf cfg entry deadline sh.clock = .ok expiration) : ExpirationOk cfg sh entry expiration := by
  refine ⟨fun hactive => ?_, fun hdeny => expirationOf_deny hdeny h⟩
  obtain ⟨d, ms, hd, heq, hle⟩ := expirationOf_active hactive h
  exact ⟨ms, heq, hle.trans (hdue hactive d hd)⟩

theorem writeOk_deny (hs : SessionOk sh session)
    (hversion : entry.version = session.version) (hexpires : entry.expiresAt = session.expiresAt)
    (hdeny : entry.status ≠ .active) (hcont : ContOk cfg sh i entry cont) : WriteOk cfg sh i entry none .prepare cont :=
  ⟨⟨hversion ▸ hs.1, hversion ▸ hs.2.1, hexpires.trans hs.2.2⟩, fun ha => absurd ha hdeny, trivial, hcont⟩

theorem status_of_live (h : session.live now = true) : session.status = .active := by
  unfold live at h
  simp only [Bool.and_eq_true, decide_eq_true_eq] at h
  exact h.1.1

theorem resume_ok (hcont : ContOk cfg sh i entry cont) (hseal : cont.tombstone = true → Sealed cfg sh)
    (result : Except WriteError Unit) : PcOk cfg sh i (resume tok cont result) := by
  cases cont with
  | fill caller session =>
    rcases result with (_ | _ | _ | _) | _ <;> first | trivial | exact pcOk_readReturns _ _
  | deny caller => exact pcOk_readReturns _ _
  | rotated | advanced => rcases result with (_ | _ | _ | _) | _ <;> trivial
  | reuseFence | allFence =>
    rcases result with e | _
    · trivial
    · exact hcont
  | reuseDone => trivial
  | revokeFence caller rv candidate =>
    rcases result with e | _
    · exact pcOk_revokeReturns _ _
    · exact hcont
  | revokeDone | hashDone => exact hseal rfl
  | hashFence presentedHash rv session =>
    rcases result with e | _
    · exact hcont.1
    · exact hcont
  | allDone rv => exact fun _ => hseal rfl

theorem moveWrite_good (h : SharedOk cfg sh) {stage : WriteStage} (hw : WriteOk cfg sh i entry deadline stage cont)
    (hup : ∀ expiration, stage = .send expiration → cont.tombstone = true → env.redis = .up) :
    Good cfg i sh (moveWrite cfg tok sh env entry deadline cont stage) := by
  cases stage with
  | prepare =>
    simp only [moveWrite]
    split_ifs with hoff
    · exact good_same h (resume_ok hw.next (fun ht => ⟨(hw.next.of_tombstone ht).1, .inl hoff⟩) _)
    · cases hexp : expirationOf cfg entry deadline sh.clock with
      | error e =>
        refine good_same h (resume_ok hw.next (fun ht => ?_) _)
        obtain ⟨expiration, hok⟩ := expirationOf_deny_ok cfg (hw.next.of_tombstone ht).2.2 deadline sh.clock
        rw [hexp] at hok
        cases hok
      | ok expiration =>
        exact good_same h (pcOk_write ⟨hw.snapshot, hw.due, expirationOk_of hw.due hexp, hw.next⟩)
  | send expiration =>
    have hup := hup expiration rfl
    have heffect := cache_effect (j := i) h hw.snapshot hw.staged
    have hnext := hw.next.write heffect.2.sealed
    have hseal : cont.tombstone = true → Sealed cfg
        { sh with cache := (runScript sh.cache entry expiration sh.clock).1 } := by
      intro ht
      obtain ⟨hdead, hversion, hdeny⟩ := hw.next.of_tombstone ht
      exact tombstone_seals h hdead hw.snapshot hw.staged hversion hdeny
    simp only [moveWrite]
    cases hredis : env.redis with
    | down =>
      exact good_same h (resume_ok hw.next (fun ht => by simp [hup ht] at hredis) _)
    | unanswered => exact ⟨heffect.1, heffect.2, resume_ok hnext hseal _⟩
    | up =>
      refine ⟨heffect.1, heffect.2, ?_⟩
      simp only
      split_ifs with hrefused hactive
      · exact resume_ok hnext hseal _
      · exact pcOk_write ⟨hw.snapshot, hw.due, hactive, hnext⟩
      · exact resume_ok hnext hseal _
  | complete =>
    simp only [moveWrite]
    refine good_same h (resume_ok hw.next (fun ht => ?_) _)
    exact absurd hw.staged (hw.next.of_tombstone ht).2.2

theorem moveRead_ok (h : SharedOk cfg sh) {pc : ReadPc Hash}
    (hpc : PcOk cfg sh i (.read caller pc)) : PcOk cfg sh i (moveRead cfg sh env caller pc) := by
  cases pc with
  | cache =>
    simp only [moveRead]
    split_ifs <;> trivial
  | reply entry =>
    cases entry with
    | none => trivial
    | some entry =>
      simp only [moveRead]
      split_ifs
      · trivial
      · exact pcOk_readReturns _ _
      · exact pcOk_readReturns _ _
  | deadline => exact le_refl _
  | row deadline =>
    have hdue : deadline ≤ sh.clock + cfg.ttl := hpc
    simp only [moveRead]
    split_ifs
    · exact pcOk_readFails _ _
    · refine ⟨sessionOk_row h, fun hactive => ?_⟩
      simpa only [bound, hactive, if_true] using hdue
  | check deadline session =>
    simp only [moveRead]
    split_ifs with hdead _ hon
    · refine pcOk_write ⟨hpc.1, fun hactive => ?_, trivial, trivial⟩
      cases hactive
    · exact pcOk_readReturns _ _
    · refine pcOk_write ⟨hpc.1, fun hactive d hd => ?_, trivial, trivial⟩
      cases hd
      exact hpc.2 hactive
    · exact pcOk_readReturns _ _
  | confirm session =>
    simp only [moveRead]
    split_ifs
    · exact pcOk_readFails _ _
    · exact pcOk_readReturns _ _
    · exact pcOk_readReturns _ _

theorem moveRefresh_ok [DecidableEq Hash] {secret : Secret} {pc : RefreshPc} :
    PcOk cfg sh i (moveRefresh tok sh env secret pc) := by
  cases pc with simp only [moveRefresh]
  | check | clock => split_ifs <;> trivial
  | user session =>
    split
    · split_ifs <;> trivial
    · trivial

theorem lock_none (h : ¬ sh.lock.isSome = true) : sh.lock = none := by
  cases hl : sh.lock with
  | none => rfl
  | some k => simp [hl] at h

section

variable (h : SharedOk cfg sh)

include h

theorem moveRotate_good [DecidableEq Hash] {rot : Rotation Secret} {pc : RotatePc Hash}
    (hpc : PcOk cfg sh i (.rotate rot pc)) : Good cfg i sh (moveRotate cfg tok sh env rot pc) := by
  cases pc with
  | deadline left => exact good_same h (le_refl (sh.clock + cfg.ttl))
  | row left deadline =>
    have hdue : deadline ≤ sh.clock + cfg.ttl := hpc
    simp only [moveRotate]
    split_ifs with hdb huser hdead hcurrent hprevious hgrace hnext
    · exact good_same h trivial
    · exact good_same h trivial
    · exact good_same h trivial
    · have hactive := status_of_live (Bool.eq_true_of_not_eq_false hdead)
      refine good_same h ⟨sessionOk_row h, hactive, ?_⟩
      simpa only [bound, hactive, if_true] using hdue
    · exact good_same h trivial
    · exact good_same h trivial
    · exact good_same h trivial
    · exact good_same h (pcOk_write (writeOk_deny (sessionOk_row h) rfl rfl
        (by simp [denyFence]) (sessionOk_row h)))
  | swap left deadline session =>
    obtain ⟨hsession, hactive, hdue⟩ := hpc
    simp only [moveRotate]
    split_ifs with hheld hdb hmatch
    · exact good_same h ⟨hsession, hactive, hdue⟩
    · exact good_same h trivial
    · have hrow := status_of_live hmatch.2.1
      have heffect := @row_effect _ _ cfg sh i h hrow (lock_none hheld)
        { sh.row with
          previousRefreshHash := some session.refreshHash
          previousValidUntil := rot.now + cfg.refreshReplayWindow
          refreshHash := tok.hashRefreshSecret (tok.deriveNextRefreshSecret rot.secret)
          lastActiveAt := rot.now }
        (sh.rotations ++ [(tok.hashRefreshSecret rot.secret,
          tok.hashRefreshSecret (tok.deriveNextRefreshSecret rot.secret))]) hrow rfl (le_refl _)
      refine ⟨heffect.1, heffect.2, pcOk_write ⟨hsession, fun _ d hd => ?_, trivial, trivial⟩⟩
      cases hd
      exact hdue.trans heffect.2.bound
    · split <;> exact good_same h trivial
  | confirm session =>
    simp only [moveRotate]
    split_ifs <;> exact good_same h trivial
  | revoke session =>
    simp only [moveRotate]
    split_ifs with hheld hdb hmatch
    · exact good_same h hpc
    · exact good_same h trivial
    · have hrow := status_of_live hmatch.2
      have heffect := @revoke_effect _ _ cfg sh i h hrow
        (fun k _ hk => by simp [hk] at hheld) rot.now "refresh_reuse" (some rot.secret)
      exact ⟨heffect.1, heffect.2, pcOk_write (writeOk_deny (SessionOk.mono hpc heffect.2) rfl rfl
        (by simp [cacheEntry, revoke]) trivial)⟩
    · exact good_same h trivial

theorem moveAdvance_good {adv : Advance} {pc : AdvancePc Hash}
    (hpc : PcOk cfg sh i (.advance adv pc)) : Good cfg i sh (moveAdvance cfg sh env adv pc) := by
  cases pc with
  | deadline =>
    simp only [moveAdvance]
    split_ifs
    · exact good_same h trivial
    · exact good_same h (le_refl (sh.clock + cfg.ttl))
  | clock deadline => exact good_same h hpc
  | tx deadline now =>
    have hdue : deadline ≤ sh.clock + cfg.ttl := hpc
    simp only [moveAdvance]
    split_ifs with hheld hdb huser hstale
    · exact good_same h hpc
    · exact good_same h trivial
    · exact good_same h trivial
    · exact good_same h trivial
    · simp only [not_or, not_not] at hstale
      have heffect := @row_effect _ _ cfg sh i h hstale.1 (lock_none hheld)
        { sh.row with
          version := sh.row.version + 1
          userAuthVersion := adv.nextUserAuthVersion
          lastActiveAt := now } sh.rotations hstale.1 rfl
        (by show sh.row.version ≤ sh.row.version + 1; omega)
      refine ⟨heffect.1, heffect.2, pcOk_write ⟨sessionOk_row heffect.1, fun _ d hd => ?_, trivial, trivial⟩⟩
      cases hd
      simpa only [bound, hstale.1, if_true] using hdue
  | confirm session =>
    simp only [moveAdvance]
    split_ifs <;> exact good_same h trivial

variable {userID : Int}

theorem moveRevoke_good {pc : RevokePc Hash} (hpc : PcOk cfg sh i (.revoke caller userID reason pc))
    (hsame : ∀ now candidate, pc = .tx now candidate → sh.row.version = candidate.version) :
    Good cfg i sh (moveRevoke sh env caller userID reason pc) := by
  cases pc with simp only [moveRevoke]
  | clock =>
    split_ifs
    · exact good_same h (pcOk_revokeReturns _ _)
    · exact good_same h trivial
  | row now =>
    split_ifs
    · exact good_same h (pcOk_revokeReturns _ _)
    · exact good_same h (pcOk_revokeReturns _ _)
    · exact good_same h (pcOk_write (writeOk_deny (sessionOk_row h) rfl rfl
        (by simp [denyFence]) (sessionOk_row h)))
  | tx now candidate =>
    split_ifs with hheld hdb hlive
    · exact good_same h hpc
    · exact good_same h (pcOk_revokeReturns _ _)
    · have heffect := @revoke_effect _ _ cfg sh i h (status_of_live hlive)
        (fun k _ hk => by simp [hk] at hheld) now reason caller.secret
      have hdeny : (candidate.revoke now reason).cacheEntry.status ≠ .active := by simp [cacheEntry, revoke]
      refine ⟨heffect.1, heffect.2, pcOk_write (writeOk_deny (SessionOk.mono hpc heffect.2) rfl rfl
        hdeny ⟨?_, ?_, hdeny⟩)⟩
      · simp [Shared.revokeRow, revoke]
      · exact (hsame now candidate rfl).symm
    · exact good_same h (pcOk_revokeReturns _ _)

theorem moveHash_good [DecidableEq Hash] {presentedHash : Hash} {pc : HashPc Hash}
    (hpc : PcOk cfg sh i (.revokeHash presentedHash reason pc)) :
    Good cfg i sh (moveHash i sh env presentedHash reason pc) := by
  cases pc with
  | clock => exact good_same h trivial
  | lock now =>
    simp only [moveHash]
    split_ifs with hheld hdb hvalid
    · exact good_same h trivial
    · exact good_same h trivial
    · have heffect := @lock_effect _ _ cfg sh i h (fun k _ hk => by simp [hk] at hheld) (some i)
      exact ⟨heffect.1, heffect.2, pcOk_write (writeOk_deny (sessionOk_row heffect.1) rfl rfl
        (by simp [denyFence]) ⟨rfl, rfl⟩)⟩
    · exact good_same h trivial
  | update now session =>
    obtain ⟨hlock, rfl⟩ := hpc
    have hmine : ∀ k, k ≠ i → sh.lock ≠ some k := by
      rintro k hk heq
      rw [hlock] at heq
      exact hk (Option.some.inj heq).symm
    have hfree := @lock_effect _ _ cfg sh i h hmine none
    simp only [moveHash]
    split_ifs with hdb hactive
    · exact ⟨hfree.1, hfree.2, trivial⟩
    · have hrevoke := @revoke_effect _ _ cfg sh i h hactive hmine now reason none
      have hunlock := @lock_effect _ _ cfg (sh.revokeRow now reason none) i hrevoke.1 hmine none
      have hdeny : (sh.row.revoke now reason).cacheEntry.status ≠ .active := by simp [cacheEntry, revoke]
      refine ⟨hunlock.1, ⟨le_refl _, rfl, le_refl _, ?_, fun hd => absurd hactive hd,
        fun hs => absurd hactive hs.dead, fun k hk heq => absurd heq (hmine k hk)⟩, ?_⟩
      · exact hrevoke.2.bound.trans hunlock.2.bound
      · exact pcOk_write (writeOk_deny (sessionOk_row hunlock.1) rfl rfl hdeny ⟨hdeny, rfl, hdeny⟩)
    · exact ⟨hfree.1, hfree.2, trivial⟩
  | rollback e =>
    have hfree := @lock_effect _ _ cfg sh i h (fun k hk heq => hk (by
      rw [show sh.lock = some i from hpc] at heq
      exact (Option.some.inj heq).symm)) none
    exact ⟨hfree.1, hfree.2, trivial⟩

theorem moveAll_good {pc : AllPc} (hpc : PcOk cfg sh i (.revokeAll userID reason pc)) :
    Good cfg i sh (moveAll sh env userID reason pc) := by
  cases pc with simp only [moveAll]
  | clock =>
    split_ifs
    · exact good_same h trivial
    · refine good_same h ?_
      intro hdone
      cases hdone
  | row now done =>
    split_ifs with hdb hfound hdone
    · exact good_same h trivial
    · exact good_same h (pcOk_write (writeOk_deny (sessionOk_row h) rfl rfl (by simp [denyFence]) hpc))
    · exact good_same h (hpc hdone)
    · exact good_same h trivial
  | tx now done =>
    split_ifs with hheld hdb hactive
    · exact good_same h hpc
    · exact good_same h trivial
    · have heffect := @revoke_effect _ _ cfg sh i h hactive
        (fun k _ hk => by simp [hk] at hheld) now reason none
      have hdeny : (sh.row.revoke now reason).cacheEntry.status ≠ .active := by simp [cacheEntry, revoke]
      exact ⟨heffect.1, heffect.2, pcOk_write (writeOk_deny (sessionOk_row heffect.1) rfl rfl hdeny
        ⟨hdeny, rfl, hdeny⟩)⟩
    · exact good_same h hpc

end

variable [DecidableEq Hash]

/-- The transaction of `RevokeUserSession` finds the version that was read before it, and Redis answers
a tombstone. -/
def Current (sh : Shared Secret Hash) (env : Env) : Pc Secret Hash → Prop
  | .revoke _ _ _ (.tx _ candidate) => sh.row.version = candidate.version
  | .write _ _ (.send _) cont => cont.tombstone = true → env.redis = .up
  | _ => True

instance (sh : Shared Secret Hash) (env : Env) (pc : Pc Secret Hash) : Decidable (Current sh env pc) := by
  unfold Current
  split <;> infer_instance

/-- **Step**: a thread's move keeps the shared state in order and every thread informed. -/
theorem move_good (h : SharedOk cfg sh) {pc : Pc Secret Hash} (hpc : PcOk cfg sh i pc)
    (hcur : Current sh env pc) : Good cfg i sh (move cfg tok i sh env pc) := by
  cases pc with
  | idle | returned => exact good_same h trivial
  | read caller pc => exact good_same h (moveRead_ok h hpc)
  | refresh secret pc => exact good_same h moveRefresh_ok
  | rotate rot pc => exact moveRotate_good h hpc
  | advance adv pc => exact moveAdvance_good h hpc
  | revoke caller userID reason pc =>
    refine moveRevoke_good h hpc fun now candidate htx => ?_
    subst htx
    exact hcur
  | revokeHash presentedHash reason pc => exact moveHash_good h hpc
  | revokeAll userID reason pc => exact moveAll_good h hpc
  | revokeDone caller =>
    have heffect := @returned_effect _ _ cfg sh i h hpc
    exact ⟨heffect.1, heffect.2, pcOk_revokeReturns _ _⟩
  | write entry deadline stage cont =>
    refine moveWrite_good h hpc fun expiration hstage => ?_
    subst hstage
    exact hcur

end Moves

/-! ### What starts later -/

section Late

variable {tok : Tokens Secret Hash} {env : Env}

/-- **Seal**: nothing live is found in a sealed cache. -/
theorem not_live_of_visible (h : SharedOk cfg sh) (hs : Sealed cfg sh)
    (hon : cfg.redisEnabled = true) (he : visible sh.cache sh.clock = some e) : e.live (unix sh.clock) = false := by
  obtain ⟨k, hk, rfl, hlt⟩ := visible_some he
  obtain ⟨-, hexpires, hbound⟩ := h.key k hk
  have hnot : k.entry.status = .active → k.entry.expiresAt ≤ unix sh.clock := by
    intro hactive
    have hle := hbound hactive
    rw [bound, if_neg hs.dead] at hle
    rcases hs.closed with hoff | hover | ⟨k', hk', hdeny, -⟩
    · simp [hon] at hoff
    · -- the entry has not expired, so it is the session that has
      rw [hexpires]
      unfold fenceEnd atUnix at hover
      unfold unix
      omega
    · rw [hk] at hk'
      cases hk'
      exact absurd hactive hdeny
  unfold CacheEntry.live
  by_cases hactive : k.entry.status = .active
  · have hle := hnot hactive
    simp only [Bool.and_eq_false_iff, decide_eq_false_iff_not]
    exact .inr (by omega)
  · simp [hactive]

theorem late_readReturns (caller : Caller Secret) : LateOk sh (readReturns caller none : Pc Secret Hash) := by
  cases caller <;> exact id

theorem late_moveRead (h : SharedOk cfg sh) (hs : Sealed cfg sh)
    {pc : ReadPc Hash} (hl : LateOk sh (.read caller pc)) : LateOk sh (moveRead cfg sh env caller pc) := by
  cases pc with
  | cache =>
    simp only [moveRead]
    split_ifs with hon hup
    · cases hv : visible sh.cache sh.clock with
      | none => exact id
      | some e => exact not_live_of_visible h hs hon hv
    · exact id
    · exact id
  | reply entry =>
    cases entry with
    | none => exact id
    | some entry =>
      have hdead : entry.live (unix sh.clock) = false := hl
      simp only [moveRead]
      split_ifs
      · exact id
      · exact late_readReturns _
  | deadline => exact id
  | row deadline =>
    simp only [moveRead]
    split_ifs
    · cases caller <;> exact id
    · exact hs.dead
  | check deadline session =>
    have hdead : session.live (unix sh.clock) = false := by
      have hstatus : session.status ≠ .active := hl
      simp [live, hstatus]
    simp only [moveRead]
    rw [if_pos hdead]
    split_ifs
    · exact id
    · exact late_readReturns _
  | confirm session => exact hl.elim

theorem late_write {entry : CacheEntry} {deadline : Option Int} {stage stage' : WriteStage}
    {cont : Cont Secret Hash} (hl : LateOk sh (.write entry deadline stage cont)) :
    LateOk sh' (.write entry deadline stage' cont) := by
  cases cont <;> exact hl

theorem late_resume {entry : CacheEntry} {deadline : Option Int} {stage : WriteStage}
    {cont : Cont Secret Hash} (hl : LateOk sh (.write entry deadline stage cont))
    (result : Except WriteError Unit) : LateOk sh' (resume tok cont result) := by
  cases cont with
  | fill caller session => exact hl.elim
  | deny caller => exact late_readReturns _
  | revokeFence caller rv candidate =>
    rcases result with (_ | _ | _ | _) | _ <;> cases caller <;> exact id
  | _ => rcases result with (_ | _ | _ | _) | _ <;> exact id

variable [DecidableEq Hash]

theorem late_move (h : SharedOk cfg sh) (hs : Sealed cfg sh) {pc : Pc Secret Hash} (hl : LateOk sh pc) :
    LateOk (move cfg tok i sh env pc).1 (move cfg tok i sh env pc).2 := by
  cases pc with
  | idle => exact id
  | returned answer => exact hl
  | read caller pc => exact late_moveRead h hs hl
  | refresh secret pc => exact absurd trivial hl
  | rotate rot pc =>
    cases pc with
    | deadline left => exact id
    | row | confirm | revoke =>
      simp only [move, moveRotate]
      split_ifs <;> exact id
    | swap left deadline session =>
      simp only [move, moveRotate]
      split_ifs
      · exact id
      · exact id
      · exact id
      · split <;> exact id
  | advance adv pc =>
    cases pc with
    | clock deadline => exact id
    | _ =>
      simp only [move, moveAdvance]
      split_ifs <;> exact id
  | revoke caller userID reason pc =>
    cases pc <;> simp only [move, moveRevoke] <;> split_ifs <;> cases caller <;> exact id
  | revokeHash presentedHash reason pc =>
    cases pc with
    | rollback e => cases e <;> exact id
    | clock => exact id
    | lock | update =>
      simp only [move, moveHash]
      split_ifs <;> exact id
  | revokeAll userID reason pc => cases pc <;> simp only [move, moveAll] <;> split_ifs <;> exact id
  | revokeDone caller => cases caller <;> exact id
  | write entry deadline stage cont =>
    cases stage with
    | prepare =>
      simp only [move, moveWrite]
      split_ifs
      · exact late_resume hl _
      · split
        · exact late_resume hl _
        · exact late_write hl
    | send expiration =>
      simp only [move, moveWrite]
      split
      · exact late_resume hl _
      · exact late_resume hl _
      · simp only
        split_ifs
        · exact late_resume hl _
        · exact late_write hl
        · exact late_resume hl _
    | complete => exact late_resume hl _

end Late

/-! ### Runs -/

section Runs

variable {tok : Tokens Secret Hash}

/-- The session is active, no call is running, and what the cache holds came from the row. -/
structure Starts (cfg : Config) (s : Sys Secret Hash) : Prop where
  active : s.shared.row.status = .active
  version : 0 < s.shared.row.version
  key : ∀ k, s.shared.cache = some k → k.entry.version ≤ s.shared.row.version ∧
    k.entry.expiresAt = s.shared.row.expiresAt ∧ k.expires ≤ s.shared.clock + cfg.ttl
  unrevoked : s.shared.revokeReturned = false
  idle : ∀ i, s.thread i = ⟨.idle, false, false⟩

def Meets (s : Sys Secret Hash) : Action Secret Hash → Prop
  | .move i env => Current s.shared env (s.thread i).pc
  | _ => True

instance (s : Sys Secret Hash) (a : Action Secret Hash) : Decidable (Meets s a) := by
  unfold Meets
  split <;> infer_instance

variable {s : Sys Secret Hash}

theorem holds_start (h : Starts cfg s) : Threads.Holds (SharedOk cfg) (Ok cfg) s := by
  refine ⟨⟨h.version, fun hdead => absurd h.active hdead, fun k hk => ?_, fun hret => ?_⟩, fun i => ?_⟩
  · obtain ⟨h1, h2, h3⟩ := h.key k hk
    refine ⟨h1, h2, fun _ => ?_⟩
    rwa [bound, if_pos h.active]
  · rw [h.unrevoked] at hret
    cases hret
  · rw [h.idle i]
    refine ⟨trivial, fun hlate => ?_⟩
    cases hlate

theorem tick_effect (h : SharedOk cfg sh) (ms : ℕ) : SharedOk cfg { sh with clock := sh.clock + ms } ∧
      ∀ j, Guar cfg j sh { sh with clock := sh.clock + ms } := by
  have hbound : bound cfg sh ≤ bound cfg { sh with clock := sh.clock + ms } := by
    simp only [bound]
    split_ifs <;> omega
  have hseal : Sealed cfg sh → Sealed cfg { sh with clock := sh.clock + ms } := by
    rintro ⟨hdead, hoff | hover | hkey⟩
    · exact ⟨hdead, .inl hoff⟩
    · refine ⟨hdead, .inr (.inl ?_)⟩
      simp only [fenceEnd] at hover ⊢
      omega
    · exact ⟨hdead, .inr (.inr hkey)⟩
  refine ⟨⟨h.version, fun hdead => ?_, fun k hk => ?_, fun hret => hseal (h.returned hret)⟩,
    fun j => ⟨?_, rfl, le_refl _, hbound, fun _ => rfl, hseal, fun _ _ _ => ⟨rfl, rfl⟩⟩⟩
  · have := h.died hdead
    show sh.revokedClock ≤ sh.clock + ms
    omega
  · obtain ⟨h1, h2, h3⟩ := h.key k hk
    exact ⟨h1, h2, fun ha => (h3 ha).trans hbound⟩
  · show sh.clock ≤ sh.clock + ms
    omega

theorem start_ok (h : SharedOk cfg sh) (call : Call Secret Hash) :
    Ok cfg sh i ⟨call.start, sh.revokeReturned, false⟩ := by
  refine ⟨by cases call <;> trivial, fun hlate => ⟨h.returned hlate, ?_⟩⟩
  cases call <;> exact id

variable [DecidableEq Hash]

theorem step_holds {a : Action Secret Hash} (h : Threads.Holds (SharedOk cfg) (Ok cfg) s) (hmeets : Meets s a) :
    Threads.Holds (SharedOk cfg) (Ok cfg) (step cfg tok s a) := by
  cases a with
  | begin i call =>
    simp only [step]
    split
    · exact h.put ok_stable h.shared (start_ok h.shared call) (Guar.refl cfg i s.shared)
    · exact h
  | move i env =>
    have hok := h.thread i
    have hgood := @move_good _ _ cfg s.shared i tok env _ h.shared _ hok.1 hmeets
    refine h.put ok_stable hgood.shared ⟨hgood.pc, fun hlate => ?_⟩ hgood.guar
    obtain ⟨hseal, hl⟩ := hok.2 hlate
    exact ⟨hgood.guar.sealed hseal, late_move h.shared hseal hl⟩
  | tick ms =>
    obtain ⟨hshared, hguar⟩ := tick_effect h.shared ms
    exact h.pass hshared fun {i p} hok =>
      ok_stable i (i + 1) _ _ _ (Nat.succ_ne_self i).symm (hguar (i + 1)) hok

/-- **Revocation**: in every run whose revocations find the version they read and have their last
write answered, no call that starts after a revocation has returned is served the session. -/
theorem revoked_never_served {s : Sys Secret Hash} (hstart : Starts cfg s)
    {as : List (Action Secret Hash)} (h : StepSys.Along (step cfg tok) Meets s as) (i : ℕ) :
    ((StepSys.run (step cfg tok) s as).thread i).late = true →
      ¬ Served ((StepSys.run (step cfg tok) s as).thread i).pc := by
  have hholds := run_inv (fun s a hI hP => step_holds hI hP) (holds_start hstart) h
  intro hlate hserved
  have hl := ((hholds.thread i).2 hlate).2
  generalize ((run (step cfg tok) s as).thread i).pc = pc at hl hserved
  cases pc with
  | returned answer =>
    cases answer with
    | session entry => exact hl trivial
    | _ => exact hserved
  | refresh secret pc => exact hl trivial
  | _ => exact hserved

end Runs

/-! ### A session served after its revocation -/

section Served

theorem freshSys_starts : Starts sixtySeconds freshSys := by
  refine ⟨rfl, by decide, fun k hk => ?_, rfl, fun _ => rfl⟩
  cases hk

def logoutThenRead : List (Action ℕ ℕ) :=
  .begin 0 (.revoke 1 "logout") :: moves 0 8 answered ++ [.begin 1 .read] ++ moves 1 2 answered

theorem revoked_never_served_after_logout :
    ((StepSys.run (step sixtySeconds countingTokens) freshSys logoutThenRead).thread 1).late = true ∧
    ¬ Served ((StepSys.run (step sixtySeconds countingTokens) freshSys logoutThenRead).thread 1).pc :=
  ⟨by decide, revoked_never_served freshSys_starts (by decide) 1 (by decide)⟩

/-- The logout publishes its fence and stalls until the session is advanced to version `2`, whose entry is
written when the fence has expired.  The logout's tombstone has version `1` and is refused. -/
def advanceDuringLogout : List (Action ℕ ℕ) :=
  .begin 0 (.revoke 1 "logout") :: moves 0 4 answered ++ [.tick 30000] ++
    .begin 1 (.advance ⟨1, 1, 1, 2⟩) :: moves 1 3 answered ++ [.tick 35000] ++ moves 1 3 answered ++ [.tick 5000] ++
    moves 0 4 answered ++ [.begin 2 .read] ++ moves 2 2 answered

theorem served_after_revoke :
    let s := StepSys.run (step sixtySeconds countingTokens) freshSys advanceDuringLogout
    (s.thread 0).pc = .returned (.revoked true) ∧ s.shared.row.status = .revoked ∧
      (s.thread 2).late = true ∧ Served (s.thread 2).pc := by
  intro s
  have hread : (s.thread 2).pc =
      .returned (.session ⟨1, 2, 2, .active, 30, 86400, 0, "", 1⟩) := by decide
  refine ⟨by decide, by decide, by decide, ?_⟩
  rw [hread]
  trivial

end Served

end WynthApi.Auth
