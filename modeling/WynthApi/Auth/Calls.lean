import WynthApi.Auth.Session
import WynthApi.Lib.Run
import WynthApi.Lib.Threads

/-!
# The calls on a login session, step by step (model/user_session.go, service/auth_session.go)

Every call is a thread.  One step is one statement, one command to Redis, one look at the clock or a whole
transaction; other threads, and time, come in between.  `RevokeUserSessionByRefreshHash` writes to Redis inside its
transaction: a step that needs the row's lock then waits.

`RefreshLoginSession` starts as a read (`GetUserSessionCached`), may revoke, and goes on as a rotation
(`RotateUserSessionRefresh`); its token's own id is that of the session.  What happens outside is an
`Env`: statements and commands that fail, and what the two lookups of the user return.

The columns `revokedClock`, `revokedBy`, `rotations` and `revokeReturned` are history; no code reads
them.
-/

namespace WynthApi.Auth

variable {Secret Hash : Type}

structure Tokens (Secret Hash : Type) where
  hashRefreshSecret : Secret → Hash
  deriveNextRefreshSecret : Secret → Secret

/-! ### Threads -/

inductive Caller (Secret : Type) where
  | direct
  | refresh (secret : Secret)
  deriving DecidableEq

structure Rotation (Secret : Type) where
  secret : Secret
  (userID now : Int)
  deriving DecidableEq

structure Advance where
  (userID expectedSessionVersion expectedUserAuthVersion nextUserAuthVersion : Int)
  deriving DecidableEq

structure Revocation where
  userID : Int
  reason : String
  now : Int
  deriving DecidableEq

inductive Fault where
  | db
  | redis
  | user
  deriving DecidableEq

inductive Answer (Secret : Type) where
  | session (entry : CacheEntry)
  | refreshed (secret next : Secret)
  | advanced (entry : CacheEntry)
  | revoked (done : Bool)
  | inactive
  | invalid
  | notFound
  | loginSessionRevoked
  | refreshTokenInvalid
  | refreshRace
  | observationStale
  | failed (fault : Fault)
  deriving DecidableEq

inductive Cont (Secret Hash : Type) where
  | fill (caller : Caller Secret) (session : UserSession Hash)
  | deny (caller : Caller Secret)
  | rotated (rot : Rotation Secret) (session : UserSession Hash)
  | reuseFence (rot : Rotation Secret) (session : UserSession Hash)
  | reuseDone
  | advanced (adv : Advance) (session : UserSession Hash)
  | revokeFence (caller : Caller Secret) (rv : Revocation) (candidate : UserSession Hash)
  | revokeDone (caller : Caller Secret)
  | hashFence (presentedHash : Hash) (rv : Revocation) (session : UserSession Hash)
  | hashDone
  | allFence (rv : Revocation) (done : Bool)
  | allDone (rv : Revocation)
  deriving DecidableEq

inductive WriteStage where
  | prepare
  | send (expiration : Expiration)
  | complete
  deriving DecidableEq

inductive ReadPc (Hash : Type) where
  | cache
  | reply (entry : Option CacheEntry)
  | deadline
  | row (cacheDeadline : Int)
  | check (cacheDeadline : Int) (session : UserSession Hash)
  | confirm (session : UserSession Hash)
  deriving DecidableEq

/-- Where `RefreshLoginSession` stands between its read and its rotation. -/
inductive RefreshPc where
  | check (session : CacheEntry)
  | user (session : CacheEntry)
  | clock (session : CacheEntry)
  deriving DecidableEq

/-- Where `RotateUserSessionRefresh` stands; `left` turns of its loop are to come. -/
inductive RotatePc (Hash : Type) where
  | deadline (left : ℕ)
  | row (left : ℕ) (cacheDeadline : Int)
  | swap (left : ℕ) (cacheDeadline : Int) (session : UserSession Hash)
  | confirm (session : UserSession Hash)
  | revoke (session : UserSession Hash)
  deriving DecidableEq

inductive AdvancePc (Hash : Type) where
  | deadline
  | clock (cacheDeadline : Int)
  | tx (cacheDeadline now : Int)
  | confirm (session : UserSession Hash)
  deriving DecidableEq

inductive RevokePc (Hash : Type) where
  | clock
  | row (now : Int)
  | tx (now : Int) (candidate : UserSession Hash)
  deriving DecidableEq

inductive HashPc (Hash : Type) where
  | clock
  | lock (now : Int)
  | update (now : Int) (session : UserSession Hash)
  | rollback (fault : WriteError)
  deriving DecidableEq

/-- Where `revokeUserSessions` stands; `done` says that it has revoked the session. -/
inductive AllPc where
  | clock
  | row (now : Int) (done : Bool)
  | tx (now : Int) (done : Bool)
  deriving DecidableEq

/-- Where a thread stands.  At `revokeDone` a call that has revoked the session is about to return. -/
inductive Pc (Secret Hash : Type) where
  | idle
  | returned (answer : Answer Secret)
  | read (caller : Caller Secret) (pc : ReadPc Hash)
  | refresh (secret : Secret) (pc : RefreshPc)
  | rotate (rot : Rotation Secret) (pc : RotatePc Hash)
  | advance (adv : Advance) (pc : AdvancePc Hash)
  | revoke (caller : Caller Secret) (userID : Int) (reason : String) (pc : RevokePc Hash)
  | revokeHash (presentedHash : Hash) (reason : String) (pc : HashPc Hash)
  | revokeAll (userID : Int) (reason : String) (pc : AllPc)
  | revokeDone (caller : Caller Secret)
  | write (entry : CacheEntry) (cacheDeadline : Option Int) (stage : WriteStage)
      (cont : Cont Secret Hash)
  deriving DecidableEq

structure Shared (Secret Hash : Type) where
  clock : Int
  row : UserSession Hash
  cache : Option Key
  lock : Option ℕ
  revokedClock : Int
  revokedBy : Option Secret
  rotations : List (Hash × Hash)
  revokeReturned : Bool

def Shared.revokeRow (sh : Shared Secret Hash) (now : Int) (reason : String) (secret : Option Secret) :
    Shared Secret Hash :=
  { sh with
    row := sh.row.revoke now reason
    revokedClock := sh.clock
    revokedBy := secret }

def Shared.unlock (sh : Shared Secret Hash) : Shared Secret Hash := { sh with lock := none }

/-- How a command to Redis fares: it is answered, it does not run, or its answer is lost. -/
inductive Link where
  | up
  | down
  | unanswered
  deriving DecidableEq

structure UserBase where
  enabled : Bool
  authVersion : Int
  deriving DecidableEq

structure Env where
  dbFails : Bool
  redis : Link
  (cachedUser currentUser : Option UserBase)
  deriving DecidableEq

/-! ### Where a finished part leads -/

def readReturns : Caller Secret → Option CacheEntry → Pc Secret Hash
  | .direct, some entry => .returned (.session entry)
  | .direct, none => .returned .inactive
  | .refresh secret, some entry => .refresh secret (.check entry)
  | .refresh _, none => .returned .loginSessionRevoked

def readFails : Caller Secret → Fault → Pc Secret Hash
  | .direct, fault => .returned (.failed fault)
  | .refresh _, _ => .returned .refreshTokenInvalid

/-- `RevokeUserSession` returns; a refresh does not look at what. -/
def revokeReturns : Caller Secret → Answer Secret → Pc Secret Hash
  | .direct, answer => .returned answer
  | .refresh _, _ => .returned .loginSessionRevoked

def WriteError.answer : WriteError → Answer Secret
  | .invalid => .invalid
  | .stale => .observationStale
  | .inactive => .inactive
  | .redis => .failed .redis

section Moves

variable [DecidableEq Hash] (cfg : Config) (tok : Tokens Secret Hash)

def resume : Cont Secret Hash → Except WriteError Unit → Pc Secret Hash
  | .fill caller session, .error .stale => .read caller (.confirm session)
  | .fill caller _, .error .inactive => readReturns caller none
  | .fill caller session, _ => readReturns caller (some session.cacheEntry)
  | .deny caller, _ => readReturns caller none
  | .rotated rot session, .error .stale => .rotate rot (.confirm session)
  | .rotated _ _, .error .inactive => .returned .inactive
  | .rotated rot _, _ => .returned (.refreshed rot.secret (tok.deriveNextRefreshSecret rot.secret))
  | .reuseFence rot session, .ok () => .rotate rot (.revoke session)
  | .reuseFence _ _, .error e => .returned e.answer
  | .reuseDone, _ => .returned .loginSessionRevoked
  | .advanced adv session, .error .stale => .advance adv (.confirm session)
  | .advanced _ session, .ok () => .returned (.advanced session.cacheEntry)
  | .advanced _ _, .error e => .returned e.answer
  | .revokeFence caller rv candidate, .ok () =>
    .revoke caller rv.userID rv.reason (.tx rv.now candidate)
  | .revokeFence caller _ _, .error e => revokeReturns caller e.answer
  | .revokeDone caller, _ => .revokeDone caller
  | .hashFence presentedHash rv session, .ok () =>
    .revokeHash presentedHash rv.reason (.update rv.now session)
  | .hashFence presentedHash rv _, .error e => .revokeHash presentedHash rv.reason (.rollback e)
  | .hashDone, _ => .revokeDone .direct
  | .allFence rv done, .ok () => .revokeAll rv.userID rv.reason (.tx rv.now done)
  | .allFence _ _, .error e => .returned e.answer
  | .allDone rv, _ => .revokeAll rv.userID rv.reason (.row rv.now true)

variable (sh : Shared Secret Hash) (env : Env)

def moveWrite (entry : CacheEntry) (deadline : Option Int)
    (cont : Cont Secret Hash) : WriteStage → Shared Secret Hash × Pc Secret Hash
  | .prepare =>
    if cfg.redisEnabled = false then (sh, resume tok cont (.ok ()))
    else match expirationOf cfg entry deadline sh.clock with
      | .error e => (sh, resume tok cont (.error e))
      | .ok expiration => (sh, .write entry deadline (.send expiration) cont)
  | .send expiration =>
    let result := runScript sh.cache entry expiration sh.clock
    match env.redis with
    | .down => (sh, resume tok cont (.error .redis))
    | .unanswered => ({ sh with cache := result.1 }, resume tok cont (.error .redis))
    | .up => ({ sh with cache := result.1 },
        if result.2 = false then resume tok cont (.error .inactive)
        else if entry.status = .active then .write entry deadline .complete cont
        else resume tok cont (.ok ()))
  | .complete => (sh, resume tok cont (completed entry deadline sh.clock))

variable (session : UserSession Hash)

/-- `confirmUserSessionActiveSnapshot` finds the row as the snapshot has it. -/
def confirms : Bool :=
  sh.row.userID = session.userID && sh.row.live (unix sh.clock) &&
    sh.row.version = session.version && sh.row.userAuthVersion = session.userAuthVersion

variable (caller : Caller Secret)

def moveRead :
    ReadPc Hash → Pc Secret Hash
  | .cache =>
    if cfg.redisEnabled = true then
      .read caller (.reply (if env.redis = .up then visible sh.cache sh.clock else none))
    else .read caller .deadline
  | .reply none => .read caller .deadline
  | .reply (some entry) =>
    if entry.wellFormed = false then .read caller .deadline
    else if entry.live (unix sh.clock) = false then readReturns caller none
    else readReturns caller (some entry)
  | .deadline => .read caller (.row (sh.clock + cfg.ttl))
  | .row deadline =>
    if env.dbFails = true then readFails caller .db else .read caller (.check deadline sh.row)
  | .check deadline session =>
    if session.live (unix sh.clock) = false then
      if cfg.redisEnabled = true then
        .write { session.cacheEntry with status := .revoked } none .prepare (.deny caller)
      else readReturns caller none
    else if cfg.redisEnabled = true then
      .write session.cacheEntry (some deadline) .prepare (.fill caller session)
    else readReturns caller (some session.cacheEntry)
  | .confirm session =>
    if env.dbFails = true then readFails caller .db
    else if confirms sh session = true then readReturns caller (some session.cacheEntry)
    else readReturns caller none

/-- `RefreshLoginSession` from its read to its rotation. -/
def moveRefresh (secret : Secret) :
    RefreshPc → Pc Secret Hash
  | .check session =>
    if session.live (unix sh.clock) = false then .returned .loginSessionRevoked
    else .refresh secret (.user session)
  | .user session =>
    match env.cachedUser, env.currentUser with
    | some cached, some current =>
      if cached.enabled = false ∨ cached.authVersion ≠ session.userAuthVersion ∨
          current.enabled = false ∨ current.authVersion ≠ session.userAuthVersion then
        .revoke (.refresh secret) session.userID "user_security_changed" .clock
      else .refresh secret (.clock session)
    | _, _ => .returned (.failed .user)
  | .clock session =>
    if session.userID ≤ 0 ∨ tok.hashRefreshSecret secret =
        tok.hashRefreshSecret (tok.deriveNextRefreshSecret secret) then .returned .invalid
    else .rotate ⟨secret, session.userID, unix sh.clock⟩ (.deadline 3)

def UserSession.rotate (nextHash : Hash) (now grace : Int) : UserSession Hash :=
  { session with
    previousRefreshHash := some session.refreshHash
    previousValidUntil := now + grace
    refreshHash := nextHash
    lastActiveAt := now }

/-- `RotateUserSessionRefresh`, with what `RefreshLoginSession` makes of its result. -/
def moveRotate (rot : Rotation Secret) :
    RotatePc Hash → Shared Secret Hash × Pc Secret Hash
  | .deadline left => (sh, .rotate rot (.row left (sh.clock + cfg.ttl)))
  | .row left deadline =>
    let presentedHash := tok.hashRefreshSecret rot.secret
    let nextSecret := tok.deriveNextRefreshSecret rot.secret
    if env.dbFails = true then (sh, .returned (.failed .db))
    else if sh.row.userID ≠ rot.userID then (sh, .returned .notFound)
    else if sh.row.live rot.now = false then (sh, .returned .inactive)
    else if sh.row.refreshHash = presentedHash then (sh, .rotate rot (.swap left deadline sh.row))
    else if sh.row.previousRefreshHash ≠ some presentedHash then
      (sh, .returned .refreshTokenInvalid)
    else if rot.now ≤ sh.row.previousValidUntil then
      if tok.hashRefreshSecret nextSecret = sh.row.refreshHash then
        (sh, .returned (.refreshed rot.secret nextSecret))
      else (sh, .returned .refreshRace)
    else (sh, .write (sh.row.denyFence rot.now "refresh_reuse") none .prepare
      (.reuseFence rot sh.row))
  | .swap left deadline session =>
    let presentedHash := tok.hashRefreshSecret rot.secret
    let nextHash := tok.hashRefreshSecret (tok.deriveNextRefreshSecret rot.secret)
    if sh.lock.isSome then (sh, .rotate rot (.swap left deadline session))
    else if env.dbFails = true then (sh, .returned (.failed .db))
    else if sh.row.userID = rot.userID ∧ sh.row.live rot.now = true ∧
        sh.row.refreshHash = presentedHash then
      let rotated := session.rotate nextHash rot.now cfg.refreshReplayWindow
      ({ sh with
          row := { sh.row with
            previousRefreshHash := rotated.previousRefreshHash
            previousValidUntil := rotated.previousValidUntil
            refreshHash := rotated.refreshHash
            lastActiveAt := rotated.lastActiveAt }
          rotations := sh.rotations ++ [(presentedHash, nextHash)] },
        .write rotated.cacheEntry (some deadline) .prepare (.rotated rot rotated))
    else match left with
      | 0 | 1 => (sh, .returned .refreshTokenInvalid)
      | left + 2 => (sh, .rotate rot (.deadline (left + 1)))
  | .confirm session =>
    if env.dbFails = true then (sh, .returned (.failed .db))
    else if confirms sh session = true then
      (sh, .returned (.refreshed rot.secret (tok.deriveNextRefreshSecret rot.secret)))
    else (sh, .returned .inactive)
  | .revoke session =>
    if sh.lock.isSome then (sh, .rotate rot (.revoke session))
    else if env.dbFails = true then (sh, .returned (.failed .db))
    else if sh.row.userID = rot.userID ∧ sh.row.live rot.now = true then
      (sh.revokeRow rot.now "refresh_reuse" (some rot.secret),
        .write (session.revoke rot.now "refresh_reuse").cacheEntry none .prepare .reuseDone)
    else (sh, .returned .inactive)

def moveAdvance (adv : Advance) :
    AdvancePc Hash → Shared Secret Hash × Pc Secret Hash
  | .deadline =>
    if adv.userID ≤ 0 ∨ adv.expectedSessionVersion ≤ 0 ∨ adv.expectedUserAuthVersion ≤ 0 ∨
        adv.nextUserAuthVersion ≤ adv.expectedUserAuthVersion then (sh, .returned .invalid)
    else (sh, .advance adv (.clock (sh.clock + cfg.ttl)))
  | .clock deadline => (sh, .advance adv (.tx deadline (unix sh.clock)))
  | .tx deadline now =>
    if sh.lock.isSome then (sh, .advance adv (.tx deadline now))
    else if env.dbFails = true then (sh, .returned (.failed .db))
    else if sh.row.userID ≠ adv.userID then (sh, .returned .notFound)
    else if sh.row.status ≠ .active ∨ sh.row.expiresAt ≤ now ∨
        sh.row.version ≠ adv.expectedSessionVersion ∨
        sh.row.userAuthVersion ≠ adv.expectedUserAuthVersion then (sh, .returned .inactive)
    else
      let session := { sh.row with
        version := sh.row.version + 1
        userAuthVersion := adv.nextUserAuthVersion
        lastActiveAt := now }
      ({ sh with row := session },
        .write session.cacheEntry (some deadline) .prepare (.advanced adv session))
  | .confirm session =>
    if env.dbFails = true then (sh, .returned (.failed .db))
    else if confirms sh session = true then (sh, .returned (.advanced session.cacheEntry))
    else (sh, .returned .inactive)

def Caller.secret : Caller Secret → Option Secret
  | .direct => none
  | .refresh secret => some secret

variable (userID : Int) (reason : String)

def moveRevoke : RevokePc Hash → Shared Secret Hash × Pc Secret Hash
  | .clock =>
    if userID ≤ 0 then (sh, revokeReturns caller .invalid)
    else (sh, .revoke caller userID reason (.row (unix sh.clock)))
  | .row now =>
    if env.dbFails = true then (sh, revokeReturns caller (.failed .db))
    else if sh.row.userID ≠ userID ∨ sh.row.live now = false then
      (sh, revokeReturns caller (.revoked false))
    else (sh, .write (sh.row.denyFence now reason) none .prepare
      (.revokeFence caller ⟨userID, reason, now⟩ sh.row))
  | .tx now candidate =>
    if sh.lock.isSome then (sh, .revoke caller userID reason (.tx now candidate))
    else if env.dbFails = true then (sh, revokeReturns caller (.failed .db))
    else if sh.row.live now = true then
      (sh.revokeRow now reason caller.secret,
        -- the tombstone has the version of the row read before the transaction
        .write (candidate.revoke now reason).cacheEntry none .prepare (.revokeDone caller))
    else (sh, revokeReturns caller (.revoked false))

variable (i : ℕ)

/-- `RevokeUserSessionByRefreshHash`, as thread `i`. -/
def moveHash (sh : Shared Secret Hash) (env : Env) (presentedHash : Hash)
    (reason : String) : HashPc Hash → Shared Secret Hash × Pc Secret Hash
  | .clock => (sh, .revokeHash presentedHash reason (.lock (unix sh.clock)))
  | .lock now =>
    if sh.lock.isSome then (sh, .revokeHash presentedHash reason (.lock now))
    else if env.dbFails = true then (sh, .returned (.failed .db))
    else if sh.row.live now = true ∧ (sh.row.refreshHash = presentedHash ∨
        sh.row.previousRefreshHash = some presentedHash ∧ now ≤ sh.row.previousValidUntil) then
      ({ sh with lock := some i }, .write (sh.row.denyFence now reason) none .prepare
        (.hashFence presentedHash ⟨sh.row.userID, reason, now⟩ sh.row))
    else (sh, .returned (.revoked false))
  | .update now session =>
    if env.dbFails = true then (sh.unlock, .returned (.failed .db))
    else if sh.row.status = .active then
      ((sh.revokeRow now reason none).unlock,
        .write (session.revoke now reason).cacheEntry none .prepare .hashDone)
    else (sh.unlock, .returned (.revoked false))
  | .rollback e => (sh.unlock, .returned e.answer)

/-- `revokeUserSessions`, for a session that is not excluded. -/
def moveAll :
    AllPc → Shared Secret Hash × Pc Secret Hash
  | .clock =>
    if userID ≤ 0 then (sh, .returned .invalid)
    else (sh, .revokeAll userID reason (.row (unix sh.clock) false))
  | .row now done =>
    if env.dbFails = true then (sh, .returned (.failed .db))
    else if sh.row.userID = userID ∧ sh.row.status = .active ∧ now < sh.row.expiresAt then
      (sh, .write (sh.row.denyFence now reason) none .prepare
        (.allFence ⟨userID, reason, now⟩ done))
    else if done = true then (sh, .revokeDone .direct)
    else (sh, .returned (.revoked false))
  | .tx now done =>
    if sh.lock.isSome then (sh, .revokeAll userID reason (.tx now done))
    else if env.dbFails = true then (sh, .returned (.failed .db))
    else if sh.row.status = .active then
      (sh.revokeRow now reason none,
        .write (sh.row.revoke now reason).cacheEntry none .prepare
          (.allDone ⟨userID, reason, now⟩))
    else (sh, .revokeAll userID reason (.row now done))

def move (sh : Shared Secret Hash) (env : Env) :
    Pc Secret Hash → Shared Secret Hash × Pc Secret Hash
  | .idle => (sh, .idle)
  | .returned answer => (sh, .returned answer)
  | .read caller pc => (sh, moveRead cfg sh env caller pc)
  | .refresh secret pc => (sh, moveRefresh tok sh env secret pc)
  | .rotate rot pc => moveRotate cfg tok sh env rot pc
  | .advance adv pc => moveAdvance cfg sh env adv pc
  | .revoke caller userID reason pc => moveRevoke sh env caller userID reason pc
  | .revokeHash presentedHash reason pc => moveHash i sh env presentedHash reason pc
  | .revokeAll userID reason pc => moveAll sh env userID reason pc
  | .revokeDone caller => ({ sh with revokeReturned := true }, revokeReturns caller (.revoked true))
  | .write entry deadline stage cont => moveWrite cfg tok sh env entry deadline cont stage

end Moves

/-! ### The system -/

inductive Call (Secret Hash : Type) where
  | read
  | refresh (secret : Secret)
  | advance (adv : Advance)
  | revoke (userID : Int) (reason : String)
  | revokeHash (presentedHash : Hash) (reason : String)
  | revokeAll (userID : Int) (reason : String)
  deriving DecidableEq

def Call.start : Call Secret Hash → Pc Secret Hash
  | .read => .read .direct .cache
  | .refresh secret => .read (.refresh secret) .cache
  | .advance adv => .advance adv .deadline
  | .revoke userID reason => .revoke .direct userID reason .clock
  | .revokeHash presentedHash reason => .revokeHash presentedHash reason .clock
  | .revokeAll userID reason => .revokeAll userID reason .clock

/-- A thread with its history: a revocation had returned when the call started, and the call has met
its token as the previous one after the grace window. -/
structure Thread (Secret Hash : Type) where
  pc : Pc Secret Hash
  (late replayed : Bool)

abbrev Sys (Secret Hash : Type) := Threads.Sys (Shared Secret Hash) (Thread Secret Hash)

inductive Action (Secret Hash : Type) where
  | begin (i : ℕ) (call : Call Secret Hash)
  | move (i : ℕ) (env : Env)
  | tick (ms : ℕ)
  deriving DecidableEq

section Step

variable [DecidableEq Hash] (cfg : Config) (tok : Tokens Secret Hash)

/-- The step of a rotation that finds its token to be the previous one, after the grace window. -/
def replays (sh : Shared Secret Hash) (env : Env) : Pc Secret Hash → Bool
  | .rotate rot (.row _ _) =>
    !env.dbFails && sh.row.userID = rot.userID && sh.row.live rot.now &&
      sh.row.refreshHash ≠ tok.hashRefreshSecret rot.secret &&
      sh.row.previousRefreshHash = some (tok.hashRefreshSecret rot.secret) &&
      sh.row.previousValidUntil < rot.now
  | _ => false

def Thread.move (th : Thread Secret Hash) (i : ℕ) (sh : Shared Secret Hash) (env : Env) :
    Thread Secret Hash where
  pc := (Auth.move cfg tok i sh env th.pc).2
  late := th.late
  replayed := th.replayed || replays tok sh env th.pc

def step (s : Sys Secret Hash) : Action Secret Hash → Sys Secret Hash
  | .begin i call =>
    match (s.thread i).pc with
    | .idle => s.put i s.shared ⟨call.start, s.shared.revokeReturned, false⟩
    | _ => s
  | .move i env =>
    s.put i (move cfg tok i s.shared env (s.thread i).pc).1 ((s.thread i).move cfg tok i s.shared env)
  | .tick ms => ⟨{ s.shared with clock := s.shared.clock + ms }, s.thread⟩

end Step

/-! ### A sample session -/

section Sample

def sixtySeconds : Config := ⟨true, 60, 30, by decide⟩

def countingTokens : Tokens ℕ ℕ := ⟨id, Nat.succ⟩

def freshSession : UserSession ℕ := ⟨1, 1, 1, .active, 0, none, 0, 0, 86400, 0, ""⟩

def freshSys : Sys ℕ ℕ :=
  ⟨⟨0, freshSession, none, none, 0, none, [], false⟩, fun _ => ⟨.idle, false, false⟩⟩

def answered : Env := ⟨false, .up, some ⟨true, 1⟩, some ⟨true, 1⟩⟩

def moves (i n : ℕ) (env : Env) : List (Action ℕ ℕ) := List.replicate n (.move i env)

end Sample

end WynthApi.Auth
