import Mathlib.Data.Option.Basic
import Mathlib.Order.Lattice

/-!
# A login session, its row and its cache key (model/user_session.go)

One login session: the row of the table, and the hash under its key in Redis with its expiry.  Time is one clock in
milliseconds; the code's `Unix()` is that clock in seconds.  A key is gone from the moment it expires on.  The
session's id is the same everywhere and left out.

`runScript` is the script of `writeUserSessionCache`; time can pass before and after it.
-/

namespace WynthApi.Auth

/-! ### The row and the cached snapshot -/

inductive SessionStatus where
  | active
  | revoking
  | revoked
  deriving DecidableEq

structure UserSession (Hash : Type) where
  (userID version userAuthVersion : Int)
  status : SessionStatus
  refreshHash : Hash
  previousRefreshHash : Option Hash
  (previousValidUntil lastActiveAt expiresAt revokedAt : Int)
  revokedReason : String
  deriving DecidableEq

structure CacheEntry where
  (userID version userAuthVersion : Int)
  status : SessionStatus
  (lastActiveAt expiresAt revokedAt : Int)
  revokedReason : String
  cacheSchema : Int
  deriving DecidableEq

def userSessionCacheSchema : Int := 1

variable {Hash : Type} (session : UserSession Hash)

def UserSession.cacheEntry : CacheEntry where
  userID := session.userID
  version := session.version
  userAuthVersion := session.userAuthVersion
  status := session.status
  lastActiveAt := session.lastActiveAt
  expiresAt := session.expiresAt
  revokedAt := session.revokedAt
  revokedReason := session.revokedReason
  cacheSchema := userSessionCacheSchema

variable (now : Int)

def UserSession.live : Bool :=
  session.status = .active && session.revokedAt = 0 && now < session.expiresAt

variable (entry : CacheEntry)

def CacheEntry.live : Bool :=
  entry.status = .active && entry.revokedAt = 0 && now < entry.expiresAt

def UserSession.revoke (reason : String) : UserSession Hash :=
  { session with status := .revoked, revokedAt := now, revokedReason := reason }

/-- The entry of `writeUserSessionDenyFence`. -/
def UserSession.denyFence (reason : String) : CacheEntry :=
  { session.cacheEntry with status := .revoking, revokedAt := now, revokedReason := reason }

/-- The checks of `getUserSessionCache` on the shape of an entry. -/
def CacheEntry.wellFormed : Bool :=
  entry.cacheSchema = userSessionCacheSchema && 0 < entry.userID && 0 < entry.version &&
    0 < entry.userAuthVersion

/-! ### Time and settings -/

structure Config where
  redisEnabled : Bool
  (userCacheTTLSeconds refreshReplayWindow : Int)
  ttl_pos : 0 < userCacheTTLSeconds

def Config.ttl (cfg : Config) : Int := cfg.userCacheTTLSeconds * 1000

theorem Config.ttl_pos' (cfg : Config) : 0 < cfg.ttl := by
  have := cfg.ttl_pos
  unfold Config.ttl
  omega

def unix (clock : Int) : Int := clock / 1000

def atUnix (sec : Int) : Int := sec * 1000

/-! ### The cache key -/

structure Key where
  entry : CacheEntry
  expires : Int
  deriving DecidableEq

def visible (cache : Option Key) (clock : Int) : Option CacheEntry :=
  cache.bind fun k => if clock < k.expires then some k.entry else none

inductive Expiration where
  | at (ms : Int)
  | after (ms : Int)
  deriving DecidableEq

inductive WriteError where
  | invalid
  | stale
  | inactive
  | redis
  deriving DecidableEq

/-- `writeUserSessionCache` up to the script.  An active entry keeps to its deadline, a deny entry
lives from the moment it is written. -/
def expirationOf (cfg : Config) (entry : CacheEntry) (cacheDeadline : Option Int) (now : Int) :
    Except WriteError Expiration :=
  let sessionExpiresAt := atUnix entry.expiresAt
  let sessionTTL := sessionExpiresAt - now
  if entry.status = .active then
    match cacheDeadline with
    | none => .error .invalid
    | some deadline =>
      if deadline - now ≤ 0 then .error .stale
      else if sessionTTL ≤ 0 then .error .inactive
      else
        let cacheExpiresAt := if sessionExpiresAt < deadline then sessionExpiresAt else deadline
        if cacheExpiresAt - now < 1 then .error .stale else .ok (.at cacheExpiresAt)
  else
    let ttl := min sessionTTL cfg.ttl
    .ok (.after (if ttl ≤ 0 then 1000 else ttl))

def runScript (cache : Option Key) (entry : CacheEntry) (expiration : Expiration) (clock : Int) :
    Option Key × Bool :=
  let current := visible cache clock
  let denied := current.any fun e => e.status = .revoking || e.status = .revoked
  if entry.status = .active ∧ denied = true then (cache, false)
  else if entry.version < (current.map CacheEntry.version).getD 0 then (cache, false)
  else match expiration with
    -- a time that is not ahead deletes the key
    | .at ms => (if ms ≤ clock then none else some ⟨entry, ms⟩, true)
    | .after ms => (some ⟨entry, clock + ms⟩, true)

/-- `writeUserSessionCache` after the script has written an active entry. -/
def completed (cacheDeadline : Option Int) (completedAt : Int) :
    Except WriteError Unit :=
  match cacheDeadline with
  | none => .ok ()
  | some deadline =>
    if deadline ≤ completedAt then .error .stale
    else if atUnix entry.expiresAt ≤ completedAt then .error .inactive
    else .ok ()

/-! ### What a write can leave under the key -/

section Writes

variable {cfg : Config} {entry : CacheEntry} {clock : Int} {deadline : Option Int} {expiration : Expiration}

theorem expirationOf_active
    (hactive : entry.status = .active) (h : expirationOf cfg entry deadline clock = .ok expiration) :
    ∃ d ms, deadline = some d ∧ expiration = .at ms ∧ ms ≤ d := by
  unfold expirationOf at h
  simp only [hactive, if_true] at h
  cases deadline with
  | none => cases h
  | some d =>
    simp only at h
    split_ifs at h with h₁ h₂ h₃ h₄ h₅
    · cases h
      exact ⟨d, _, rfl, rfl, by omega⟩
    · cases h
      exact ⟨d, _, rfl, rfl, le_refl d⟩

/-- A deny entry lives, from any later moment on, until its session is over or for the full time. -/
theorem expirationOf_deny (hdeny : entry.status ≠ .active)
    (h : expirationOf cfg entry deadline clock = .ok expiration) :
    ∃ ms, expiration = .after ms ∧ ∀ later, clock ≤ later →
      atUnix entry.expiresAt ≤ later ∨ min (atUnix entry.expiresAt) (later + cfg.ttl) ≤ later + ms := by
  have hpos := cfg.ttl_pos'
  unfold expirationOf at h
  simp only [if_neg hdeny] at h
  cases h
  refine ⟨_, rfl, fun later hlater => ?_⟩
  split_ifs with hle
  · left
    omega
  · right
    omega

theorem expirationOf_deny_ok (cfg : Config) (hdeny : entry.status ≠ .active) (deadline : Option Int) (clock : Int) :
    ∃ expiration, expirationOf cfg entry deadline clock = .ok expiration := by
  unfold expirationOf
  simp only [if_neg hdeny]
  exact ⟨_, rfl⟩

/-- **Script**: it leaves the key alone, deletes it for an active entry that is out of time, or writes
the entry, which is then not older than what was visible and not active over a deny entry. -/
theorem runScript_cases (cache : Option Key) (clock : Int) (hversion : 0 < entry.version)
    (expiration : Expiration) : ((runScript cache entry expiration clock).1 = cache ∧
      (runScript cache entry expiration clock).2 = false ∧
      ∃ e, visible cache clock = some e ∧ (entry.version < e.version ∨
        entry.status = .active ∧ e.status ≠ .active)) ∨ ((runScript cache entry expiration clock).2 = true ∧
      (∀ e, visible cache clock = some e → e.version ≤ entry.version ∧
        (entry.status = .active → e.status = .active)) ∧ ((∃ ms, expiration = .at ms ∧ ms ≤ clock ∧
          (runScript cache entry expiration clock).1 = none) ∨ (∃ ms, expiration = .at ms ∧ clock < ms ∧
          (runScript cache entry expiration clock).1 = some ⟨entry, ms⟩) ∨ (∃ ms, expiration = .after ms ∧
          (runScript cache entry expiration clock).1 = some ⟨entry, clock + ms⟩))) := by
  unfold runScript
  simp only
  by_cases hdenied : entry.status = .active ∧ (visible cache clock).any (fun e =>
      e.status = .revoking || e.status = .revoked) = true
  · rw [if_pos hdenied]
    cases hv : visible cache clock with
    | none => simp [hv] at hdenied
    | some e =>
      refine .inl ⟨rfl, rfl, e, rfl, .inr ⟨hdenied.1, fun hactive => ?_⟩⟩
      simp [hv, hactive] at hdenied
  rw [if_neg hdenied]
  by_cases holder : entry.version < ((visible cache clock).map CacheEntry.version).getD 0
  · rw [if_pos holder]
    cases hv : visible cache clock with
    | none =>
      rw [hv, Option.map_none, Option.getD_none] at holder
      omega
    | some e =>
      rw [hv] at holder
      exact .inl ⟨rfl, rfl, e, rfl, .inl holder⟩
  rw [if_neg holder]
  refine .inr ⟨?_, fun e he => ⟨?_, fun hactive => ?_⟩, ?_⟩
  · cases expiration <;> rfl
  · simpa [he] using holder
  · cases hs : e.status with
    | active => rfl
    | revoking | revoked => exact absurd ⟨hactive, by simp [he, hs]⟩ hdenied
  · cases expiration with
    | «at» ms =>
      by_cases hms : ms ≤ clock
      · exact .inl ⟨ms, rfl, hms, by simp [hms]⟩
      · exact .inr (.inl ⟨ms, rfl, by omega, by simp [hms]⟩)
    | after ms => exact .inr (.inr ⟨ms, rfl, rfl⟩)

end Writes

end WynthApi.Auth
