import Yuance.Devices.SessionCalls
import Yuance.Lib.Calls

/-!
# Yuance.Auth.BrowserSessions

The browser sessions of `api/src/domains/auth.rs`, and the calls of `api/src/domains/users.rs` that
end them. A call makes one statement or transaction after another; each is atomic, and other calls
make theirs in between. A transaction of `device_sessions.rs` is one statement. The tokens, the salt
and the nonces that a call draws are given to it.

* `Db`: the tables of the browser sessions beside those of the devices. The rows of `users` are in
  the latter, but for the column `password_hash`.
* `Statement`, `execute`: the statements, each with its constraints.
* `Request`, `start`: the calls.
* `serve`: the server, with any number of calls at work.
-/

namespace Yuance
namespace Auth
namespace BrowserSessions

open Lib Yuance.Platform

/-! ## Tables -/

inductive SessionStatus where
  | active
  | revoked
  | expired
  deriving DecidableEq, Repr

/-- A row of `sessions`; `datetime('now')` is a number of seconds. -/
structure SessionRow where
  sessionTokenHash : String
  userId : Int
  sessionStatus : SessionStatus
  expiresAt : Int
  revokeReason : String
  deriving DecidableEq

/-- A row of `refresh_sessions`. -/
structure RefreshSessionRow where
  id : Int
  refreshTokenHash : String
  userId : Int
  sessionStatus : SessionStatus
  expiresAt : Int
  revokeReason : String
  rotatedSessionTokenCiphertext : Option String
  rotatedRefreshTokenCiphertext : Option String
  rotationRecoveryExpiresAt : Option Int
  deriving DecidableEq

structure SessionTable where
  rows : List SessionRow
  /-- `session_token_hash TEXT NOT NULL UNIQUE`. -/
  hashes : (rows.map (·.sessionTokenHash)).Nodup

structure RefreshSessionTable where
  rows : List RefreshSessionRow
  /-- `id INTEGER PRIMARY KEY AUTOINCREMENT`. -/
  ids : (rows.map (·.id)).Nodup
  /-- `refresh_token_hash TEXT NOT NULL UNIQUE`. -/
  hashes : (rows.map (·.refreshTokenHash)).Nodup

/-- The column `password_hash` of `users`. -/
structure PasswordRow where
  id : Int
  passwordHash : String
  deriving DecidableEq

structure Db where
  devices : Devices.Sessions.Tables
  passwords : List PasswordRow
  sessions : SessionTable
  refreshSessions : RefreshSessionTable

/-- `UPDATE sessions`, of columns other than the hash. -/
def SessionTable.update (t : SessionTable) (p : SessionRow → Bool) (f : SessionRow → SessionRow)
    (hf : ∀ r, (f r).sessionTokenHash = r.sessionTokenHash) : SessionTable where
  rows := updateWhere p f t.rows
  hashes := by
    rw [map_updateWhere _ hf]
    exact t.hashes

def SessionTable.insert (t : SessionTable) (row : SessionRow) : Option SessionTable :=
  if h : row.sessionTokenHash ∈ t.rows.map (·.sessionTokenHash) then none
  else some
    { rows := t.rows ++ [row]
      hashes := by
        rw [List.map_append]
        exact List.Nodup.append t.hashes (List.nodup_singleton _) (List.disjoint_singleton.mpr h) }

/-- `UPDATE refresh_sessions`, of columns other than the keys. -/
def RefreshSessionTable.update (t : RefreshSessionTable) (p : RefreshSessionRow → Bool)
    (f : RefreshSessionRow → RefreshSessionRow) (hid : ∀ r, (f r).id = r.id)
    (hhash : ∀ r, (f r).refreshTokenHash = r.refreshTokenHash) : RefreshSessionTable where
  rows := updateWhere p f t.rows
  ids := by
    rw [map_updateWhere _ hid]
    exact t.ids
  hashes := by
    rw [map_updateWhere _ hhash]
    exact t.hashes

/-- The id behind those in use. -/
def RefreshSessionTable.nextId (t : RefreshSessionTable) : Int :=
  (t.rows.map (·.id)).foldr max 0 + 1

theorem le_foldr_max {l : List Int} {i : Int} (h : i ∈ l) : i ≤ l.foldr max 0 := by
  induction l with
  | nil => cases h
  | cons j l ih =>
    rw [List.foldr_cons]
    rcases List.mem_cons.mp h with rfl | hrest
    · exact le_max_left _ _
    · exact (ih hrest).trans (le_max_right _ _)

theorem RefreshSessionTable.nextId_fresh (t : RefreshSessionTable) :
    t.nextId ∉ t.rows.map (·.id) := by
  intro h
  have hle := le_foldr_max h
  unfold nextId at hle
  omega

def RefreshSessionTable.insert (t : RefreshSessionTable) (row : RefreshSessionRow) :
    Option RefreshSessionTable :=
  if h : row.refreshTokenHash ∈ t.rows.map (·.refreshTokenHash) then none
  else some
    { rows := t.rows ++ [{ row with id := t.nextId }]
      ids := by
        rw [List.map_append]
        exact List.Nodup.append t.ids (List.nodup_singleton _)
          (List.disjoint_singleton.mpr t.nextId_fresh)
      hashes := by
        rw [List.map_append]
        exact List.Nodup.append t.hashes (List.nodup_singleton _) (List.disjoint_singleton.mpr h) }

/-! ## What the calls are given -/

/-- The crate `argon2`: the hash of a password under a salt, and whether a hash is that of a
password. -/
structure PasswordPrims where
  hashPassword : String → String → Except AppError String
  verifyPassword : String → String → Except AppError Bool

/-- What the server runs with. -/
structure Server where
  passwords : PasswordPrims
  devices : Devices.Sessions.Server

structure AuthUser where
  id : Int
  username : String
  displayName : String
  isSuperAdmin : Bool
  deriving DecidableEq

structure IssuedSession where
  rawToken : String
  refreshToken : String
  deriving DecidableEq

/-- The two tokens that a call draws, and the nonces of their ciphertexts. -/
structure Drawn where
  rawToken : String
  refreshToken : String
  sessionNonce : FixedBytes 12
  refreshNonce : FixedBytes 12

/-- What `find_refresh_session` reads. -/
structure RefreshSessionRecord where
  id : Int
  userId : Int
  sessionStatus : SessionStatus
  revokeReason : String
  rotatedSessionTokenCiphertext : Option String
  rotatedRefreshTokenCiphertext : Option String
  deriving DecidableEq

def RefreshSessionRow.record (r : RefreshSessionRow) : RefreshSessionRecord where
  id := r.id
  userId := r.userId
  sessionStatus := r.sessionStatus
  revokeReason := r.revokeReason
  rotatedSessionTokenCiphertext := r.rotatedSessionTokenCiphertext
  rotatedRefreshTokenCiphertext := r.rotatedRefreshTokenCiphertext

/-- What is bound to the two inserts of a new session. -/
structure NewSession where
  tokenHash : String
  refreshTokenHash : String
  userId : Int
  ttlSeconds : Int
  refreshTtlSeconds : Int

/-- What is bound to the transaction of `refresh_session`. -/
structure Rotation where
  id : Int
  sessionCiphertext : String
  refreshCiphertext : String
  recoveryTtlSeconds : Int
  next : NewSession

/-- `CurrentPasswordSession`. -/
inductive CurrentPasswordSession where
  | browser (rawSession : String) (rawRefresh : Option String)
  | device (familyId : String)

def hashSessionToken (S : Server) (rawToken : String) : String :=
  hexEncode (S.devices.crates.sha256.hash (utf8 rawToken))

def hashRefreshToken (S : Server) (rawToken : String) : String :=
  hexEncode (S.devices.crates.sha256.hash (utf8 rawToken))

/-! ## Statements -/

/-- The clock of `datetime('now')`, from nanoseconds. -/
def second (now : Int) : Int := now / 1000000000

/-- `9999-12-31 23:59:59`, the last time that `datetime` writes. -/
def lastSecond : Int := 253402300799

/-- `datetime('now', '+' || ttl || ' seconds')`, which does not read a second sign. -/
def datetimeIn (now ttl : Int) : Option Int :=
  if 0 ≤ ttl ∧ second now + ttl ≤ lastSecond then some (second now + ttl) else none

namespace Db

variable (db : Db) (now : Int)

def activeUser (userId : Int) : Bool :=
  db.devices.store.users.any fun u => u.id == userId && u.status == "active"

/-- `SELECT id, password_hash, status FROM users WHERE username`. -/
def userByName (username : String) : Option (Int × String × String) := do
  let profile ← db.devices.profiles.find? (·.username == username)
  let user ← db.devices.store.users.find? (·.id == profile.id)
  let password ← db.passwords.find? (·.id == profile.id)
  pure (profile.id, password.passwordHash, user.status)

def userIdAndSuperAdmin (username : String) : Option (Int × Bool) :=
  (db.devices.profiles.find? (·.username == username)).map fun p => (p.id, p.isSuperAdmin)

def activePasswordHash (userId : Int) : Option String :=
  if db.activeUser userId then (db.passwords.find? (·.id == userId)).map (·.passwordHash)
  else none

/-- The rows that `user_from_token_hash` and `touch_session` take a token from. -/
def isLive (tokenHash : String) (r : SessionRow) : Bool :=
  r.sessionTokenHash == tokenHash && r.sessionStatus == .active && decide (second now < r.expiresAt)

def userFromTokenHash (tokenHash : String) : Option AuthUser := do
  let session ← db.sessions.rows.find? fun r => isLive now tokenHash r && db.activeUser r.userId
  let profile ← db.devices.profiles.find? (·.id == session.userId)
  pure
    { id := profile.id, username := profile.username, displayName := profile.displayName
      isSuperAdmin := profile.isSuperAdmin }

/-- The rows that `find_refresh_session` may return. -/
def isFindable (refreshTokenHash : String) (r : RefreshSessionRow) : Bool :=
  r.refreshTokenHash == refreshTokenHash && db.activeUser r.userId &&
    ((r.sessionStatus == .active && decide (second now < r.expiresAt)) ||
      (r.sessionStatus == .revoked && r.revokeReason == "rotated" &&
        r.rotationRecoveryExpiresAt.any fun at' => decide (second now < at')))

def findRefreshSession (refreshTokenHash : String) : Option RefreshSessionRecord :=
  (db.refreshSessions.rows.find? (db.isFindable now refreshTokenHash)).map (·.record)

/-- `SET session_status = 'revoked'` on active rows. -/
def revokeSessions (p : SessionRow → Bool) (reason : String) : Db :=
  { db with
    sessions := db.sessions.update (fun r => p r && r.sessionStatus == .active)
      (fun r => { r with sessionStatus := .revoked, revokeReason := reason }) fun _ => rfl }

def revokeRefreshSessions (p : RefreshSessionRow → Bool) (reason : String) : Db :=
  { db with
    refreshSessions := db.refreshSessions.update (fun r => p r && r.sessionStatus == .active)
      (fun r => { r with sessionStatus := .revoked, revokeReason := reason })
      (fun _ => rfl) fun _ => rfl }

def isRecoverable (userId : Int) (r : RefreshSessionRow) : Bool :=
  r.userId == userId && r.rotationRecoveryExpiresAt.isSome

/-- A row without what its rotation stored. -/
def cleared (r : RefreshSessionRow) : RefreshSessionRow :=
  { r with
    rotatedSessionTokenCiphertext := none
    rotatedRefreshTokenCiphertext := none
    rotationRecoveryExpiresAt := none }

def clearBrowserRefreshRotationRecovery (userId : Int) : Db :=
  { db with
    refreshSessions := db.refreshSessions.update (isRecoverable userId) cleared (fun _ => rfl)
      fun _ => rfl }

/-- The two inserts, with the constraints of the tables. -/
def insertSession (s : NewSession) : Except AppError Db := do
  rejectIf (db.devices.store.users.any (·.id == s.userId) = false) .storage
  let expiresAt ← okOr (datetimeIn now s.ttlSeconds) .storage
  let sessions ← okOr (db.sessions.insert
    { sessionTokenHash := s.tokenHash, userId := s.userId, sessionStatus := .active, expiresAt
      revokeReason := "" }) .storage
  let refreshExpiresAt ← okOr (datetimeIn now s.refreshTtlSeconds) .storage
  let refreshSessions ← okOr (db.refreshSessions.insert
    { id := 0, refreshTokenHash := s.refreshTokenHash, userId := s.userId
      sessionStatus := .active, expiresAt := refreshExpiresAt, revokeReason := ""
      rotatedSessionTokenCiphertext := none, rotatedRefreshTokenCiphertext := none
      rotationRecoveryExpiresAt := none }) .storage
  pure { db with sessions, refreshSessions }

/-- A transaction that is taken back where it fails. -/
def orKeep {α : Type} (a : α) : Except AppError Db → Db × Except AppError α
  | .ok db' => (db', .ok a)
  | .error e => (db, .error e)

def isRotatable (id : Int) (r : RefreshSessionRow) : Bool :=
  r.id == id && r.sessionStatus == .active

/-- A row behind its rotation. -/
def rotated (r : Rotation) (row : RefreshSessionRow) : RefreshSessionRow :=
  { row with
    sessionStatus := .revoked
    revokeReason := "rotated"
    rotatedSessionTokenCiphertext := some r.sessionCiphertext
    rotatedRefreshTokenCiphertext := some r.refreshCiphertext
    rotationRecoveryExpiresAt := datetimeIn now r.recoveryTtlSeconds }

def markRotated (r : Rotation) : Db :=
  { db with
    refreshSessions := db.refreshSessions.update (isRotatable r.id) (rotated now r) (fun _ => rfl)
      fun _ => rfl }

/-- The transaction of `refresh_session`: whether a row was rotated. -/
def rotate (r : Rotation) : Db × Except AppError Bool :=
  if db.refreshSessions.rows.any (isRotatable r.id) then
    db.orKeep true ((db.markRotated now r).insertSession now r.next)
  else (db, .ok false)

def revokeRefreshSession (refreshTokenHash reason : String) : Db :=
  match db.refreshSessions.rows.find? (·.refreshTokenHash == refreshTokenHash) with
  | none => db
  | some row =>
    (db.revokeRefreshSessions (·.refreshTokenHash == refreshTokenHash) reason)
      |>.clearBrowserRefreshRotationRecovery row.userId

def touchRefreshSession (refreshTokenHash : String) (ttlSeconds : Int) :
    Db × Except AppError Bool :=
  let live (r : RefreshSessionRow) := r.refreshTokenHash == refreshTokenHash &&
    r.sessionStatus == .active && decide (second now < r.expiresAt) && db.activeUser r.userId
  if db.refreshSessions.rows.any live then
    match datetimeIn now ttlSeconds with
    | none => (db, .error .storage)
    | some expiresAt =>
      ({ db with
        refreshSessions := db.refreshSessions.update live (fun r => { r with expiresAt })
          (fun _ => rfl) fun _ => rfl }, .ok true)
  else (db, .ok false)

def setPassword (userId : Int) (passwordHash : String) : Db :=
  { db with
    passwords := updateWhere (·.id == userId) (fun p => { p with passwordHash }) db.passwords }

/-- The transaction of `change_own_password`; the hashes are those of the session that asks. -/
def changeOwnPassword (userId : Int) (passwordHash : String)
    (currentTokenHash currentRefreshHash currentFamily : Option String) : Db :=
  let reason := "self_password_change"
  let revoked := ((db.setPassword userId passwordHash).revokeSessions
      (fun r => r.userId == userId && currentTokenHash.all fun h => r.sessionTokenHash != h) reason)
    |>.revokeRefreshSessions
      (fun r => r.userId == userId && currentRefreshHash.all fun h => r.refreshTokenHash != h)
      reason
  { revoked.clearBrowserRefreshRotationRecovery userId with
    devices := db.devices.revokeOtherFamilies now userId currentFamily }

/-- What ends the browser sessions of a user. -/
def endBrowserSessions (userId : Int) (reason : String) : Db :=
  ((db.revokeSessions (·.userId == userId) reason).revokeRefreshSessions (·.userId == userId)
    reason)
    |>.clearBrowserRefreshRotationRecovery userId

/-- The transaction of `reset_user_password`. -/
def resetPassword (userId : Int) (passwordHash : String) : Db :=
  (db.setPassword userId passwordHash).endBrowserSessions userId "password_reset"

/-- The transaction of `set_user_status`. -/
def setUserStatus (userId : Int) (status : String) : Db :=
  let db := { db with devices := db.devices.setUserStatus userId status }
  if status ≠ "active" then db.endBrowserSessions userId "user_status_change" else db

end Db

/-- The calls of `device_sessions.rs`; the other two are part of the transactions above. -/
def isDeviceCall : Devices.Sessions.Call → Bool
  | .changeOwnPassword _ _ => false
  | .setUserStatus _ _ => false
  | _ => true

abbrev DeviceCall := { call : Devices.Sessions.Call // isDeviceCall call = true }

inductive Statement where
  | userByName (username : String)
  | userFromTokenHash (tokenHash : String)
  | insertSession (s : NewSession)
  | revokeSession (tokenHash reason : String)
  | revokeRefreshSession (refreshTokenHash reason : String)
  | touchSession (tokenHash : String)
  | touchRefreshSession (refreshTokenHash : String) (ttlSeconds : Int)
  | findRefreshSession (refreshTokenHash : String)
  | rotate (r : Rotation)
  | activePasswordHash (userId : Int)
  | changeOwnPassword (userId : Int) (passwordHash : String)
      (currentTokenHash currentRefreshHash currentFamily : Option String)
  | userIdAndSuperAdmin (username : String)
  | resetPassword (userId : Int) (passwordHash : String)
  | setUserStatus (userId : Int) (status : String)
  | device (call : DeviceCall)

abbrev Statement.Answer : Statement → Type
  | userByName _ => Option (Int × String × String)
  | userFromTokenHash _ => Option AuthUser
  | insertSession _ => Unit
  | revokeSession .. => Unit
  | revokeRefreshSession .. => Unit
  | touchSession _ => Bool
  | touchRefreshSession .. => Bool
  | findRefreshSession _ => Option RefreshSessionRecord
  | rotate _ => Bool
  | activePasswordHash _ => Option String
  | changeOwnPassword .. => Unit
  | userIdAndSuperAdmin _ => Option (Int × Bool)
  | resetPassword .. => Unit
  | setUserStatus .. => Unit
  | device _ => Devices.Sessions.Outcome

/-- The time of a statement in nanoseconds, the error that it fails with if it fails, and which
statements break in a transaction of `device_sessions.rs`. -/
structure Moment where
  now : Int
  fault : Option AppError
  faults : Faults

/-- A transaction of `device_sessions.rs`, on its tables. -/
def deviceOutcome (S : Server) (m : Moment) (db : Db) (call : DeviceCall) :
    Devices.Sessions.Tables × Devices.Sessions.Outcome :=
  (call.val.transaction S.devices m.now m.faults 0 db.devices).2

def execute (S : Server) (m : Moment) (db : Db) : (s : Statement) → Db × Except AppError s.Answer
  | .userByName username => (db, .ok (db.userByName username))
  | .userFromTokenHash tokenHash => (db, .ok (db.userFromTokenHash m.now tokenHash))
  | .insertSession s => db.orKeep () (db.insertSession m.now s)
  | .revokeSession tokenHash reason =>
    (db.revokeSessions (·.sessionTokenHash == tokenHash) reason, .ok ())
  | .revokeRefreshSession refreshTokenHash reason =>
    (db.revokeRefreshSession refreshTokenHash reason, .ok ())
  | .touchSession tokenHash => (db, .ok (db.sessions.rows.any (Db.isLive m.now tokenHash)))
  | .touchRefreshSession refreshTokenHash ttlSeconds =>
    db.touchRefreshSession m.now refreshTokenHash ttlSeconds
  | .findRefreshSession refreshTokenHash => (db, .ok (db.findRefreshSession m.now refreshTokenHash))
  | .rotate r => db.rotate m.now r
  | .activePasswordHash userId => (db, .ok (db.activePasswordHash userId))
  | .changeOwnPassword userId passwordHash currentTokenHash currentRefreshHash currentFamily =>
    (db.changeOwnPassword m.now userId passwordHash currentTokenHash currentRefreshHash
      currentFamily, .ok ())
  | .userIdAndSuperAdmin username => (db, .ok (db.userIdAndSuperAdmin username))
  | .resetPassword userId passwordHash => (db.resetPassword userId passwordHash, .ok ())
  | .setUserStatus userId status => (db.setUserStatus userId status, .ok ())
  | .device call =>
    ({ db with devices := (deviceOutcome S m db call).1 }, .ok (deviceOutcome S m db call).2)

def perform (S : Server) (m : Moment) (s : Statement) (db : Db) : Db × Except AppError s.Answer :=
  match m.fault with
  | some e => (db, .error e)
  | none => execute S m db s

/-! ## Calls -/

abbrev Task (α : Type) := Call Statement Statement.Answer AppError α

def query (s : Statement) : Task s.Answer := Call.make s

def validateUsername (username : String) : Except AppError String := do
  let username := trim username
  rejectIf (byteLen username < 3 ∨ 64 < byteLen username)
    (.badRequest "用户名长度必须为 3-64 个字符")
  rejectIf (username.toList.all (fun c => c.isAlphanum || c == '_' || c == '-' || c == '.') = false)
    (.badRequest "用户名只能包含字母、数字、下划线、中划线和点")
  pure username

def validatePassword (password : String) : Except AppError Unit :=
  rejectIf (byteLen password < 10 ∨ 128 < byteLen password)
    (.badRequest "密码长度必须为 10-128 个字符")

def validateUserStatus (status : String) : Except AppError String := do
  rejectIf (trim status ≠ "active" ∧ trim status ≠ "disabled" ∧ trim status ≠ "locked")
    (.badRequest "用户状态只能是 active / disabled / locked")
  pure (trim status)

section Calls

variable (S : Server)

def newSession (drawn : Drawn) (userId ttlSeconds refreshTtlSeconds : Int) : NewSession where
  tokenHash := hashSessionToken S drawn.rawToken
  refreshTokenHash := hashRefreshToken S drawn.refreshToken
  userId
  ttlSeconds
  refreshTtlSeconds

def Drawn.issued (drawn : Drawn) : IssuedSession where
  rawToken := drawn.rawToken
  refreshToken := drawn.refreshToken

def issueSessionWithTtls (drawn : Drawn) (userId ttlSeconds refreshTtlSeconds : Int) :
    Task IssuedSession := do
  query (.insertSession (newSession S drawn userId ttlSeconds refreshTtlSeconds))
  pure drawn.issued

def loginWithTtls (drawn : Drawn) (username password : String)
    (ttlSeconds refreshTtlSeconds : Int) : Task IssuedSession := do
  let username ← Call.ofExcept (validateUsername username)
  let found ← query (.userByName username)
  let row ← Call.okOr found .unauthorized
  Call.rejectIf (row.2.2 ≠ "active") .unauthorized
  let verified ← Call.ofExcept (S.passwords.verifyPassword password row.2.1)
  Call.rejectIf (verified = false) .unauthorized
  issueSessionWithTtls S drawn row.1 ttlSeconds refreshTtlSeconds

def rotationRecoveryAad (refreshSessionId : Int) (refreshTokenHash : String) : Bytes :=
  utf8 ("yuance:browser-refresh-rotation:" ++ toString refreshSessionId ++ ":" ++ refreshTokenHash)

def decryptPair (sessionCiphertext refreshCiphertext : String) (aad : Bytes) :
    Except AppError IssuedSession := do
  let rawToken ← Crypto.decryptSecret S.devices.crates.secrets S.devices.masterKey
    sessionCiphertext aad
  let refreshToken ← Crypto.decryptSecret S.devices.crates.secrets S.devices.masterKey
    refreshCiphertext aad
  pure { rawToken, refreshToken }

def recoverRotatedSession (row : RefreshSessionRecord) (refreshTokenHash : String) :
    Except AppError (Option IssuedSession) :=
  if row.sessionStatus ≠ .revoked ∨ row.revokeReason ≠ "rotated" then .ok none
  else
    match row.rotatedSessionTokenCiphertext, row.rotatedRefreshTokenCiphertext with
    | some sessionCiphertext, some refreshCiphertext =>
      (decryptPair S sessionCiphertext refreshCiphertext
        (rotationRecoveryAad row.id refreshTokenHash)).map some
    | _, _ => .ok none

structure RefreshInput where
  rawRefreshToken : String
  accessTtlSeconds : Int
  refreshTtlSeconds : Int
  rotationRecoveryTtlSeconds : Int
  drawn : Drawn

/-- A row that is found is recovered. -/
def recoverFound (refreshTokenHash : String) (found : Option RefreshSessionRecord) :
    Except AppError (Option IssuedSession) :=
  match found with
  | none => .ok none
  | some row => recoverRotatedSession S row refreshTokenHash

def encryptToken (nonce : FixedBytes 12) (token : String) (aad : Bytes) : Except AppError String :=
  Crypto.encryptSecret S.devices.crates.secrets nonce S.devices.masterKey token aad

/-- `refresh_session` from the ciphertexts on. -/
def rotateRefreshSession (input : RefreshInput) (row : RefreshSessionRecord)
    (sessionCiphertext refreshCiphertext : String) : Task (Option IssuedSession) := do
  let rotated ← query (.rotate
    { id := row.id, sessionCiphertext, refreshCiphertext
      recoveryTtlSeconds := input.rotationRecoveryTtlSeconds
      next := newSession S input.drawn row.userId input.accessTtlSeconds input.refreshTtlSeconds })
  match rotated with
  | true => pure (some input.drawn.issued)
  | false => do
    let found ← query (.findRefreshSession (hashRefreshToken S input.rawRefreshToken))
    Call.ofExcept (recoverFound S (hashRefreshToken S input.rawRefreshToken) found)

/-- `refresh_session` of a row. -/
def refreshRow (input : RefreshInput) (row : RefreshSessionRecord) :
    Task (Option IssuedSession) :=
  let refreshTokenHash := hashRefreshToken S input.rawRefreshToken
  if row.sessionStatus = .revoked then
    Call.ofExcept (recoverRotatedSession S row refreshTokenHash)
  else do
    let aad := rotationRecoveryAad row.id refreshTokenHash
    let sessionCiphertext ← Call.ofExcept
      (encryptToken S input.drawn.sessionNonce input.drawn.rawToken aad)
    let refreshCiphertext ← Call.ofExcept
      (encryptToken S input.drawn.refreshNonce input.drawn.refreshToken aad)
    rotateRefreshSession S input row sessionCiphertext refreshCiphertext

def refreshFound (input : RefreshInput) :
    Option RefreshSessionRecord → Task (Option IssuedSession)
  | none => pure none
  | some row => refreshRow S input row

def refreshSession (input : RefreshInput) : Task (Option IssuedSession) := do
  let found ← query (.findRefreshSession (hashRefreshToken S input.rawRefreshToken))
  refreshFound S input found

/-- The hashes of the session that asks, and its family. -/
def CurrentPasswordSession.current :
    CurrentPasswordSession → Option String × Option String × Option String
  | browser rawSession rawRefresh =>
    (some (hashSessionToken S rawSession),
      (rawRefresh.filter fun token => trim token != "").map (hashRefreshToken S), none)
  | device familyId => (none, none, some familyId)

def changeOwnPassword (userId : Int) (currentPassword newPassword salt : String)
    (session : CurrentPasswordSession) : Task Unit := do
  Call.ofExcept (validatePassword newPassword)
  let found ← query (.activePasswordHash userId)
  let passwordHash ← Call.okOr found .unauthorized
  let verified ← Call.ofExcept (S.passwords.verifyPassword currentPassword passwordHash)
  Call.rejectIf (verified = false) (.badRequest "当前密码不正确")
  let newPasswordHash ← Call.ofExcept (S.passwords.hashPassword newPassword salt)
  let (tokenHash, refreshHash, family) := session.current S
  query (.changeOwnPassword userId newPasswordHash tokenHash refreshHash family)

def findUserIdAndSuperAdmin (username : String) : Task (Int × Bool) := do
  let found ← query (.userIdAndSuperAdmin username)
  Call.okOr found (.badRequest "用户不存在")

def resetUserPassword (username password salt : String) : Task Unit := do
  let username ← Call.ofExcept (validateUsername username)
  Call.ofExcept (validatePassword password)
  let user ← findUserIdAndSuperAdmin username
  let passwordHash ← Call.ofExcept (S.passwords.hashPassword password salt)
  query (.resetPassword user.1 passwordHash)

def setUserStatus (username status : String) : Task Unit := do
  let username ← Call.ofExcept (validateUsername username)
  let status ← Call.ofExcept (validateUserStatus status)
  let user ← findUserIdAndSuperAdmin username
  Call.rejectIf (user.2 = true ∧ status ≠ "active")
    (.badRequest "超级管理员不能在页面中禁用")
  query (.setUserStatus user.1 status)

inductive Request where
  | login (drawn : Drawn) (username password : String) (ttlSeconds refreshTtlSeconds : Int)
  | issueSession (drawn : Drawn) (userId ttlSeconds refreshTtlSeconds : Int)
  | userFromRawSession (rawToken : String)
  | revokeSession (rawToken reason : String)
  | revokeRefreshSession (rawToken reason : String)
  | touchSession (rawToken : String)
  | touchRefreshSession (rawToken : String) (ttlSeconds : Int)
  | refreshSession (input : RefreshInput)
  | changeOwnPassword (userId : Int) (currentPassword newPassword salt : String)
      (session : CurrentPasswordSession)
  | resetUserPassword (username password salt : String)
  | setUserStatus (username status : String)
  | device (call : DeviceCall)

inductive Response where
  | issued (session : Option IssuedSession)
  | user (user : Option AuthUser)
  | touched (touched : Bool)
  | done
  | device (outcome : Devices.Sessions.Outcome)

def start : Request → Task Response
  | .login drawn username password ttlSeconds refreshTtlSeconds => do
    let session ← loginWithTtls S drawn username password ttlSeconds refreshTtlSeconds
    pure (.issued (some session))
  | .issueSession drawn userId ttlSeconds refreshTtlSeconds => do
    let session ← issueSessionWithTtls S drawn userId ttlSeconds refreshTtlSeconds
    pure (.issued (some session))
  | .userFromRawSession rawToken => do
    let user ← query (.userFromTokenHash (hashSessionToken S rawToken))
    pure (.user user)
  | .revokeSession rawToken reason => do
    query (.revokeSession (hashSessionToken S rawToken) (trim reason))
    pure .done
  | .revokeRefreshSession rawToken reason => do
    query (.revokeRefreshSession (hashRefreshToken S rawToken) (trim reason))
    pure .done
  | .touchSession rawToken => do
    let touched ← query (.touchSession (hashSessionToken S rawToken))
    pure (.touched touched)
  | .touchRefreshSession rawToken ttlSeconds => do
    let touched ← query (.touchRefreshSession (hashRefreshToken S rawToken) ttlSeconds)
    pure (.touched touched)
  | .refreshSession input => do
    let session ← BrowserSessions.refreshSession S input
    pure (.issued session)
  | .changeOwnPassword userId currentPassword newPassword salt session => do
    BrowserSessions.changeOwnPassword S userId currentPassword newPassword salt session
    pure .done
  | .resetUserPassword username password salt => do
    BrowserSessions.resetUserPassword S username password salt
    pure .done
  | .setUserStatus username status => do
    BrowserSessions.setUserStatus username status
    pure .done
  | .device call => do
    let outcome ← query (.device call)
    pure (.device outcome)

end Calls

abbrev State := Serving Statement Statement.Answer AppError Response Db

abbrev Step := Entry State (Turn Request Moment) Unit

def serve (S : Server) : State → Turn Request Moment → Option (State × Unit) :=
  Lib.serve (perform S) (start S)

end BrowserSessions
end Auth
end Yuance
