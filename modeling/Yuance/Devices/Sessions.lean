import Yuance.Devices.PollGate
import Yuance.Lib.Table
import Yuance.Lib.Transactions
import Yuance.Platform.Crypto

/-!
# Yuance.Devices.Sessions

The device sessions of `api/src/domains/device_sessions.rs`: the exchange of an approved
authorization for credentials and the rotation of a refresh credential, statement by statement. A
statement breaks with `storageFailure`, where a constraint refuses it or for another reason. The
ids, the tokens and the nonce that a call draws are given to it.

* `exchangeAuthorization`, `rotateRefreshToken`: the two calls.
* `transactionShouldCommit`: which errors keep what was done before them.
-/

namespace Yuance
namespace Devices
namespace Sessions

open Lib Platform

inductive DeviceSessionError where
  | invalidRequest (message : String)
  | invalidDeviceCode
  | invalidUserCode
  | invalidCodeVerifier
  | authorizationPending (retryAfterSeconds : Int)
  | slowDown (retryAfterSeconds : Int)
  | authorizationDenied
  | authorizationExpired
  | authorizationConsumed
  | userInactive
  | invalidAccessToken
  | accessExpired
  | deviceRevoked
  | familyRevoked
  | invalidRefreshToken
  | refreshExpired
  | refreshReplay
  | rotationRecoveryFailed
  | exchangeTransactionMismatch
  | idempotencyExpired
  | invalidState (state : String)
  | storageFailure
  | cryptoFailure
  deriving DecidableEq, Repr

/-! ## Tables -/

inductive DeviceStatus where
  | active
  | revoked
  deriving DecidableEq, Repr

inductive FamilyStatus where
  | active
  | revoked
  | expired
  deriving DecidableEq, Repr

inductive SessionStatus where
  | active
  | revoked
  | expired
  deriving DecidableEq, Repr

inductive CredentialStatus where
  | active
  | rotated
  | revoked
  | expired
  deriving DecidableEq, Repr

inductive RotationStatus where
  | completed
  | familyRevoked
  deriving DecidableEq, Repr

structure UserRow where
  id : Int
  status : String
  deriving DecidableEq

/-- A row of `device_authorizations`. -/
structure AuthorizationRow where
  id : String
  deviceCodeHash : String
  codeChallenge : String
  serverInstanceId : String
  installationId : String
  deviceName : String
  platform : String
  clientVersion : String
  status : AuthorizationStatus
  approvedUserId : Option Int
  exchangeTransactionId : Option String
  exchangeResultCiphertext : String
  exchangeResultExpiresAt : Option Stamp
  pollIntervalSeconds : Int
  nextPollAt : Stamp
  expiresAt : Stamp
  consumedAt : Option Stamp
  updatedAt : Stamp
  deriving DecidableEq

/-- A row of `devices`. -/
structure DeviceRow where
  id : String
  userId : Int
  serverInstanceId : String
  installationId : String
  deviceName : String
  platform : String
  clientVersion : String
  status : DeviceStatus
  authorizationVersion : Int
  lastSeenAt : Stamp
  updatedAt : Stamp
  deriving DecidableEq

/-- A row of `device_credential_families`. -/
structure FamilyRow where
  id : String
  authorizationId : String
  deviceId : String
  userId : Int
  serverInstanceId : String
  status : FamilyStatus
  authorizationVersion : Int
  refreshSlidingExpiresAt : Stamp
  refreshAbsoluteExpiresAt : Stamp
  revokedAt : Option Stamp
  revokeReason : String
  updatedAt : Stamp
  deriving DecidableEq

/-- A row of `device_access_sessions`. -/
structure SessionRow where
  id : String
  accessTokenHash : String
  familyId : String
  deviceId : String
  userId : Int
  serverInstanceId : String
  generation : Int
  issuer : String
  audience : String
  status : SessionStatus
  authorizationVersion : Int
  expiresAt : Stamp
  lastSeenAt : Stamp
  revokedAt : Option Stamp
  revokeReason : String
  updatedAt : Stamp
  deriving DecidableEq

/-- A row of `device_refresh_credentials`. -/
structure CredentialRow where
  id : String
  refreshTokenHash : String
  familyId : String
  deviceId : String
  userId : Int
  serverInstanceId : String
  generation : Int
  issuer : String
  audience : String
  status : CredentialStatus
  expiresAt : Stamp
  consumedAt : Option Stamp
  revokedAt : Option Stamp
  revokeReason : String
  updatedAt : Stamp
  deriving DecidableEq

/-- A row of `device_refresh_rotations`. -/
structure RotationRow where
  id : String
  familyId : String
  deviceId : String
  userId : Int
  serverInstanceId : String
  sourceGeneration : Int
  sourceRefreshTokenHash : String
  transactionId : String
  status : RotationStatus
  resultCiphertext : String
  resultExpiresAt : Stamp
  updatedAt : Stamp
  deriving DecidableEq

structure Store where
  users : List UserRow
  authorizations : List AuthorizationRow
  devices : List DeviceRow
  families : List FamilyRow
  sessions : List SessionRow
  credentials : List CredentialRow
  rotations : List RotationRow
  /-- `id TEXT PRIMARY KEY`. -/
  familyIds : (families.map (·.id)).Nodup

/-! ## What the calls are given -/

structure DeviceSessionPolicy where
  serverInstanceId : String
  authorizationTtlSeconds : Int
  accessTtlSeconds : Int
  refreshSlidingTtlSeconds : Int
  refreshAbsoluteTtlSeconds : Int
  idempotencyTtlSeconds : Int
  pollIntervalSeconds : Int

structure ExchangeAuthorizationInput where
  deviceCode : String
  codeVerifier : String
  exchangeTransactionId : String

structure RotateRefreshInput where
  refreshToken : String
  generation : Int
  transactionId : String
  deviceId : String
  serverInstanceId : String

/-- `InitialDeviceCredentials`; a moment is a number of nanoseconds. -/
structure Credentials where
  accessToken : String
  refreshToken : String
  deviceId : String
  familyId : String
  userId : Int
  generation : Int
  authorizationVersion : Int
  issuedAt : Int
  accessExpiresAt : Int
  refreshExpiresAt : Int
  refreshAbsoluteExpiresAt : Int
  serverInstanceId : String
  deriving DecidableEq

/-- The libraries: the hash, the ciphers, `uuid` and the JSON of the credentials. -/
structure Crates where
  sha256 : Digest
  secrets : SecretPrims
  /-- `Uuid::parse_str(..)`, written with hyphens. -/
  parseUuid : String → Option String
  encodeCredentials : Credentials → String
  decodeCredentials : String → Option Credentials

/-- What a call draws. -/
structure Drawn where
  deviceId : String
  familyId : String
  sessionId : String
  credentialId : String
  rotationId : String
  accessEntropy : FixedBytes 32
  refreshEntropy : FixedBytes 32
  nonce : FixedBytes 12

def deviceAccessTokenHead : String := "yuance_dat_"
def deviceRefreshTokenHead : String := "yuance_drt_"
def deviceCodeHead : String := "yuance_dc_"
def deviceAccessIssuer : String := "yuance-device-session"
def deviceAccessAudience : String := "yuance-api"
def deviceRefreshAudience : String := "yuance-device-refresh"

/-! ## Checks and hashes -/

def invalidState (state : String) : DeviceSessionError := .invalidState state

def validatePolicy (policy : DeviceSessionPolicy) : Except DeviceSessionError Unit :=
  rejectIf (trim policy.serverInstanceId = "" ∨ policy.authorizationTtlSeconds ≤ 0
      ∨ policy.accessTtlSeconds ≤ 0 ∨ policy.refreshSlidingTtlSeconds ≤ 0
      ∨ policy.refreshAbsoluteTtlSeconds < policy.refreshSlidingTtlSeconds
      ∨ policy.idempotencyTtlSeconds ≤ 0
      ∨ ¬ (2 ≤ policy.pollIntervalSeconds ∧ policy.pollIntervalSeconds ≤ 15))
    (.invalidRequest "device session policy 无效")

def isVerifierChar (c : Char) : Bool := c.isAlphanum || ['-', '.', '_', '~'].contains c

def validateCodeVerifier (value : String) : Except DeviceSessionError Unit :=
  rejectIf (¬ (43 ≤ byteLen value ∧ byteLen value ≤ 128) ∨ value.toList.all isVerifierChar = false)
    .invalidCodeVerifier

def normalizeTransactionIdDomain (C : Crates) (value : String) : Except DeviceSessionError String :=
  okOr (C.parseUuid (trim value)) (.invalidRequest "transaction_id 必须是有效 UUID")

/-- `valid_token_with_prefix`. -/
def validTokenWithHead (value head : String) : Bool :=
  match stripHead head value with
  | none => false
  | some encoded =>
    byteLen encoded == 43
      && match Base64.decode Base64.urlSafeNoPad encoded with
        | none => false
        | some decoded =>
          decoded.length == 32 && Base64.encode Base64.urlSafeNoPad decoded == encoded

def isDeviceRefreshToken (value : String) : Bool := validTokenWithHead value deviceRefreshTokenHead

/-- `issue_token`. -/
def issueToken (head : String) (entropy : FixedBytes 32) : String :=
  head ++ Base64.encode Base64.urlSafeNoPad entropy.val

def hashDeviceToken (C : Crates) (value : String) : String :=
  hexEncode (C.sha256.hash (utf8 value))

def checkedDeviceCodeHash (C : Crates) (value : String) : Except DeviceSessionError String := do
  rejectIf (validTokenWithHead value deviceCodeHead = false) .invalidDeviceCode
  pure (hashDeviceToken C value)

def pkceMatches (C : Crates) (verifier expectedChallenge : String) : Bool :=
  Base64.encode Base64.urlSafeNoPad (C.sha256.hash (utf8 verifier)) == expectedChallenge

def parseTimestamp (value : Stamp) : Except DeviceSessionError Int :=
  okOr ((parseRfc3339 value.text).map seconds) (invalidState "invalid_timestamp")

def structuredAad (domain : String) (fields : List String) : Bytes :=
  utf8 domain ++ 0 :: fields.flatMap fun field => toBE 4 (byteLen field) ++ utf8 field

def exchangeResultAad (authorizationId serverInstanceId transactionId deviceCodeHash : String) :
    Bytes :=
  structuredAad "device-exchange:v1"
    [authorizationId, serverInstanceId, transactionId, deviceCodeHash]

def refreshRotationAad (familyId deviceId serverInstanceId : String) (sourceGeneration : Int)
    (transactionId sourceRefreshTokenHash : String) : Bytes :=
  structuredAad "device-refresh:v1"
    [familyId, deviceId, serverInstanceId, toString sourceGeneration, transactionId,
      sourceRefreshTokenHash]

/-- `encrypt_secret` of the credentials, its error mapped. -/
def sealCredentials (C : Crates) (nonce : FixedBytes 12) (masterKey : String)
    (credentials : Credentials) (aad : Bytes) : Except DeviceSessionError String :=
  (Crypto.encryptSecret C.secrets nonce masterKey (C.encodeCredentials credentials) aad).mapError
    fun _ => .cryptoFailure

/-- `decrypt_secret` and the reading of the credentials. -/
def openCredentials (C : Crates) (masterKey ciphertext : String) (aad : Bytes) :
    Option Credentials :=
  (Crypto.decryptSecret C.secrets masterKey ciphertext aad).toOption.bind C.decodeCredentials

/-! ## Statements -/

namespace Store

variable (s : Store)

def findAuthorization (deviceCodeHash serverInstanceId : String) : Option AuthorizationRow :=
  s.authorizations.find? fun a =>
    a.deviceCodeHash == deviceCodeHash && a.serverInstanceId == serverInstanceId

/-- The update that marks an authorization whose time is over. -/
def expireAuthorization (id : String) (now : Stamp) : Store :=
  { s with
    authorizations := updateWhere
      (fun a => a.id == id && (a.status == .pending || a.status == .approved))
      (fun a => { a with status := .expired, updatedAt := now }) s.authorizations }

/-- The time of the next poll. -/
def setNextPoll (p : AuthorizationRow → Bool) (nextPollAt now : Stamp) : Store :=
  { s with
    authorizations := updateWhere p (fun a => { a with nextPollAt, updatedAt := now })
      s.authorizations }

def consumeAuthorization (id transactionId ciphertext : String) (resultExpiresAt now : Stamp) :
    Store :=
  { s with
    authorizations := updateWhere (fun a => a.id == id && a.status == .approved)
      (fun a =>
        { a with
          status := .consumed
          exchangeTransactionId := some transactionId
          exchangeResultCiphertext := ciphertext
          exchangeResultExpiresAt := some resultExpiresAt
          consumedAt := some now
          updatedAt := now }) s.authorizations }

def isDeviceOf (userId : Int) (serverInstanceId installationId : String) (d : DeviceRow) : Bool :=
  d.userId == userId && d.serverInstanceId == serverInstanceId && d.installationId == installationId

/-- `INSERT .. ON CONFLICT DO UPDATE`. -/
def upsertDeviceRow (row : DeviceRow) : Store × Except DeviceSessionError Unit :=
  if s.devices.any (isDeviceOf row.userId row.serverInstanceId row.installationId) then
    ({ s with
      devices := updateWhere (isDeviceOf row.userId row.serverInstanceId row.installationId)
        (fun d =>
          { d with
            deviceName := row.deviceName
            platform := row.platform
            clientVersion := row.clientVersion
            lastSeenAt := row.lastSeenAt
            updatedAt := row.updatedAt }) s.devices }, .ok ())
  else if s.devices.any (·.id == row.id) then (s, .error .storageFailure)
  else ({ s with devices := s.devices ++ [row] }, .ok ())

/-- The constraints are those of the table, as in the next three. -/
def insertFamily (row : FamilyRow) : Store × Except DeviceSessionError Unit :=
  if hid : row.id ∈ s.families.map (·.id) then (s, .error .storageFailure)
  else if s.families.any (·.authorizationId == row.authorizationId) = true
      ∨ row.refreshAbsoluteExpiresAt.text < row.refreshSlidingExpiresAt.text then
    (s, .error .storageFailure)
  else
    ({ s with
      families := s.families ++ [row]
      familyIds := by
        rw [List.map_append]
        exact List.Nodup.append s.familyIds (List.nodup_singleton _)
          (List.disjoint_singleton.mpr hid) }, .ok ())

def insertSession (row : SessionRow) : Store × Except DeviceSessionError Unit :=
  if s.sessions.any fun a => a.id == row.id || a.accessTokenHash == row.accessTokenHash
      || (a.familyId == row.familyId && a.generation == row.generation) then
    (s, .error .storageFailure)
  else ({ s with sessions := s.sessions ++ [row] }, .ok ())

def insertCredential (row : CredentialRow) : Store × Except DeviceSessionError Unit :=
  if s.credentials.any fun c => c.id == row.id || c.refreshTokenHash == row.refreshTokenHash
      || (c.familyId == row.familyId
        && (c.generation == row.generation || c.status == .active)) then
    (s, .error .storageFailure)
  else ({ s with credentials := s.credentials ++ [row] }, .ok ())

def insertRotation (row : RotationRow) : Store × Except DeviceSessionError Unit :=
  if s.rotations.any fun r => r.id == row.id || r.transactionId == row.transactionId
      || (r.familyId == row.familyId && r.sourceGeneration == row.sourceGeneration) then
    (s, .error .storageFailure)
  else ({ s with rotations := s.rotations ++ [row] }, .ok ())

/-- The rows that the first statement of a revocation counts. -/
def revocable (familyId : String) (userId : Int) (f : FamilyRow) : Bool :=
  f.id == familyId && f.userId == userId && f.status == .active

/-- `UPDATE device_credential_families`, which leaves the id. -/
def updateFamilies (p : FamilyRow → Bool) (f : FamilyRow → FamilyRow) (h : ∀ r, (f r).id = r.id) :
    Store :=
  { s with
    families := updateWhere p f s.families
    familyIds := by
      rw [map_updateWhere (fun r : FamilyRow => r.id) h]
      exact s.familyIds }

def revokeFamilyRow (familyId : String) (userId : Int) (now : Stamp) (reason : String) : Store :=
  s.updateFamilies (revocable familyId userId)
    (fun f =>
      { f with
        status := .revoked
        authorizationVersion := f.authorizationVersion + 1
        revokedAt := some now
        revokeReason := reason
        updatedAt := now }) fun _ => rfl

def revokeSessions (p : SessionRow → Bool) (now : Stamp) (reason : String) : Store :=
  { s with
    sessions := updateWhere (fun a => p a && a.status == .active)
      (fun a =>
        { a with
          status := .revoked, revokedAt := some now, revokeReason := reason, updatedAt := now })
      s.sessions }

def revokeCredentials (familyId : String) (now : Stamp) (reason : String) : Store :=
  { s with
    credentials := updateWhere
      (fun c => c.familyId == familyId && (c.status == .active || c.status == .rotated))
      (fun c =>
        { c with
          status := .revoked, revokedAt := some now, revokeReason := reason, updatedAt := now })
      s.credentials }

/-- The mark on a rotation, and its result erased where `erases`. -/
def markRotation (familyId : String) (sourceGeneration : Int) (now : Stamp) (erases : Bool) :
    Store :=
  { s with
    rotations := updateWhere
      (fun r => r.familyId == familyId && r.sourceGeneration == sourceGeneration)
      (fun r =>
        { r with
          status := .familyRevoked
          resultCiphertext := if erases then "" else r.resultCiphertext
          updatedAt := now }) s.rotations }

def isActiveCredential (refreshTokenHash : String) (c : CredentialRow) : Bool :=
  c.refreshTokenHash == refreshTokenHash && c.status == .active

def expireCredential (refreshTokenHash : String) (now : Stamp) : Store :=
  { s with
    credentials := updateWhere (isActiveCredential refreshTokenHash)
      (fun c => { c with status := .expired, updatedAt := now }) s.credentials }

def rotateCredential (refreshTokenHash : String) (now : Stamp) : Store :=
  { s with
    credentials := updateWhere (isActiveCredential refreshTokenHash)
      (fun c => { c with status := .rotated, consumedAt := some now, updatedAt := now })
      s.credentials }

def slideFamily (familyId : String) (refreshSlidingExpiresAt now : Stamp) : Store :=
  s.updateFamilies (·.id == familyId)
    (fun f => { f with refreshSlidingExpiresAt, updatedAt := now }) fun _ => rfl

end Store

/-! ## Transactions -/

abbrev Transaction (α : Type) := Tx Store DeviceSessionError α

def select {α : Type} (f : Store → α) : Transaction α := Tx.select .storageFailure f

def execute (f : Store → Store) : Transaction Unit := Tx.execute .storageFailure f

def insert (f : Store → Store × Except DeviceSessionError Unit) : Transaction Unit :=
  Tx.statement .storageFailure f

/-- A statement that also gives the number of rows it wrote. -/
def update (affected : Store → Nat) (f : Store → Store) : Transaction Nat :=
  Tx.statement .storageFailure fun s => (f s, .ok (affected s))

/-- `transaction_should_commit`. -/
def transactionShouldCommit {α : Type} : Except DeviceSessionError α → Bool
  | .error .storageFailure => false
  | .error .cryptoFailure => false
  | .error (.invalidState _) => false
  | _ => true

/-- `BEGIN IMMEDIATE` to `finish_transaction`. -/
def inTransaction {α : Type} (p : Transaction α) : Transaction α :=
  Tx.atomically .storageFailure transactionShouldCommit p

/-! ## The exchange -/

section Exchange

variable (C : Crates) (drawn : Drawn) (masterKey : String) (policy : DeviceSessionPolicy)
  (now : Int)

def enforcePollGate (row : AuthorizationRow) : Transaction Unit := do
  let nextPollAt ← Tx.ofExcept (parseTimestamp row.nextPollAt)
  if nextPollAt > now then do
    execute fun s => s.setNextPoll (·.id == row.id)
      (timestamp (nextPollAt + seconds row.pollIntervalSeconds)) (timestamp now)
    Tx.fail (.slowDown (max ((nextPollAt - now).tdiv 1000000000) 1 + row.pollIntervalSeconds))
  else do
    let due (a : AuthorizationRow) := a.id == row.id && !((timestamp now).text < a.nextPollAt.text)
    let updated ← update (fun s => (s.authorizations.filter due).length) fun s =>
      s.setNextPoll due (timestamp (now + seconds row.pollIntervalSeconds)) (timestamp now)
    Tx.rejectIf (updated ≠ 1) (.slowDown row.pollIntervalSeconds)

def ensureActiveUser (userId : Int) : Transaction Unit := do
  let status ← select fun s => (s.users.find? (·.id == userId)).map (·.status)
  Tx.rejectIf (status ≠ some "active") .userInactive

def upsertDevice (authorization : AuthorizationRow) (userId : Int) : Transaction String := do
  insert fun s => s.upsertDeviceRow
    { id := drawn.deviceId, userId, serverInstanceId := policy.serverInstanceId
      installationId := authorization.installationId, deviceName := authorization.deviceName
      platform := authorization.platform, clientVersion := authorization.clientVersion
      status := .active, authorizationVersion := 1, lastSeenAt := timestamp now
      updatedAt := timestamp now }
  let found ← select fun s => s.devices.find?
    (Store.isDeviceOf userId policy.serverInstanceId authorization.installationId)
  let device ← Tx.okOr found .storageFailure
  Tx.rejectIf (device.status ≠ .active) (invalidState "已撤销 installation 不可重新交换凭证")
  pure device.id

/-- The result of an exchange that was made before. -/
def recoverExchange (row : AuthorizationRow) (transactionId deviceCodeHash : String) :
    Except DeviceSessionError Credentials := do
  rejectIf (row.exchangeTransactionId ≠ some transactionId) .exchangeTransactionMismatch
  let resultExpiresAt ← okOr row.exchangeResultExpiresAt
    (invalidState "consumed_without_result_expiry")
  rejectIf (row.exchangeResultCiphertext = "") .idempotencyExpired
  let resultExpiresAt ← parseTimestamp resultExpiresAt
  rejectIf (resultExpiresAt ≤ now) .idempotencyExpired
  okOr (openCredentials C masterKey row.exchangeResultCiphertext
    (exchangeResultAad row.id policy.serverInstanceId transactionId deviceCodeHash)) .cryptoFailure

/-- The credentials of the exchange. -/
def initialCredentials (deviceId : String) (userId authorizationVersion : Int) : Credentials :=
  { accessToken := issueToken deviceAccessTokenHead drawn.accessEntropy
    refreshToken := issueToken deviceRefreshTokenHead drawn.refreshEntropy
    deviceId, familyId := drawn.familyId, userId, generation := 0, authorizationVersion
    issuedAt := now, accessExpiresAt := now + seconds policy.accessTtlSeconds
    refreshExpiresAt := now + seconds policy.refreshSlidingTtlSeconds
    refreshAbsoluteExpiresAt := now + seconds policy.refreshAbsoluteTtlSeconds
    serverInstanceId := policy.serverInstanceId }

/-- The rows of new credentials. -/
def insertSessionOf (credentials : Credentials) : Transaction Unit :=
  insert fun s => s.insertSession
    { id := drawn.sessionId, accessTokenHash := hashDeviceToken C credentials.accessToken
      familyId := credentials.familyId, deviceId := credentials.deviceId
      userId := credentials.userId, serverInstanceId := policy.serverInstanceId
      generation := credentials.generation, issuer := deviceAccessIssuer
      audience := deviceAccessAudience, status := .active
      authorizationVersion := credentials.authorizationVersion
      expiresAt := timestamp credentials.accessExpiresAt, lastSeenAt := timestamp now
      revokedAt := none, revokeReason := "", updatedAt := timestamp now }

def insertCredentialOf (credentials : Credentials) : Transaction Unit :=
  insert fun s => s.insertCredential
    { id := drawn.credentialId, refreshTokenHash := hashDeviceToken C credentials.refreshToken
      familyId := credentials.familyId, deviceId := credentials.deviceId
      userId := credentials.userId, serverInstanceId := policy.serverInstanceId
      generation := credentials.generation, issuer := deviceAccessIssuer
      audience := deviceRefreshAudience, status := .active
      expiresAt := timestamp credentials.refreshExpiresAt, consumedAt := none, revokedAt := none
      revokeReason := "", updatedAt := timestamp now }

/-- The exchange from the device on. -/
def issueCredentials (row : AuthorizationRow) (userId : Int)
    (transactionId deviceCodeHash : String) : Transaction Credentials := do
  let deviceId ← upsertDevice drawn policy now row userId
  insert fun s => s.insertFamily
    { id := drawn.familyId, authorizationId := row.id, deviceId, userId
      serverInstanceId := policy.serverInstanceId, status := .active, authorizationVersion := 1
      refreshSlidingExpiresAt := timestamp (now + seconds policy.refreshSlidingTtlSeconds)
      refreshAbsoluteExpiresAt := timestamp (now + seconds policy.refreshAbsoluteTtlSeconds)
      revokedAt := none, revokeReason := "", updatedAt := timestamp now }
  let device ← select fun s => s.devices.find? (·.id == deviceId)
  let device ← Tx.okOr device .storageFailure
  let credentials := initialCredentials drawn policy now deviceId userId device.authorizationVersion
  insertSessionOf C drawn policy now credentials
  insertCredentialOf C drawn policy now credentials
  let ciphertext ← Tx.ofExcept (sealCredentials C drawn.nonce masterKey credentials
    (exchangeResultAad row.id policy.serverInstanceId transactionId deviceCodeHash))
  let approved (a : AuthorizationRow) := a.id == row.id && a.status == .approved
  let updated ← update (fun s => (s.authorizations.filter approved).length) fun s =>
    s.consumeAuthorization row.id transactionId ciphertext
      (timestamp (now + seconds policy.idempotencyTtlSeconds)) (timestamp now)
  Tx.rejectIf (updated ≠ 1) (invalidState "authorization_exchange_cas_failed")
  pure credentials

/-- The `match` on the status of an authorization whose time is not over. -/
def requireOpen : AuthorizationStatus → Except DeviceSessionError Unit
  | .denied => .error .authorizationDenied
  | .expired => .error .authorizationExpired
  | .consumed => .error (invalidState "consumed")
  | .pending => .ok ()
  | .approved => .ok ()

/-- The exchange of an authorization that was not consumed. -/
def exchangeOpen (row : AuthorizationRow) (transactionId deviceCodeHash : String) :
    Transaction Credentials := do
  let expiresAt ← Tx.ofExcept (parseTimestamp row.expiresAt)
  if expiresAt ≤ now then do
    execute fun s => s.expireAuthorization row.id (timestamp now)
    Tx.fail .authorizationExpired
  else do
    Tx.ofExcept (requireOpen row.status)
    enforcePollGate now row
    Tx.rejectIf (row.status = .pending) (.authorizationPending row.pollIntervalSeconds)
    let userId ← Tx.okOr row.approvedUserId (invalidState "approved_without_user")
    ensureActiveUser userId
    issueCredentials C drawn masterKey policy now row userId transactionId deviceCodeHash

def exchangeInTransaction (deviceCodeHash codeVerifier transactionId : String) :
    Transaction Credentials := do
  let found ← select fun s => s.findAuthorization deviceCodeHash policy.serverInstanceId
  let row ← Tx.okOr found .invalidDeviceCode
  Tx.rejectIf (pkceMatches C codeVerifier row.codeChallenge = false) .invalidCodeVerifier
  if row.status = .consumed then
    Tx.ofExcept (recoverExchange C masterKey policy now row transactionId deviceCodeHash)
  else exchangeOpen C drawn masterKey policy now row transactionId deviceCodeHash

def exchangeAuthorization (input : ExchangeAuthorizationInput) : Transaction Credentials := do
  Tx.ofExcept (validatePolicy policy)
  Tx.ofExcept (validateCodeVerifier input.codeVerifier)
  let transactionId ← Tx.ofExcept (normalizeTransactionIdDomain C input.exchangeTransactionId)
  let deviceCodeHash ← Tx.ofExcept (checkedDeviceCodeHash C input.deviceCode)
  let found ← select fun s => s.findAuthorization deviceCodeHash policy.serverInstanceId
  Tx.rejectIf (found = none) .invalidDeviceCode
  inTransaction (exchangeInTransaction C drawn masterKey policy now deviceCodeHash
    input.codeVerifier transactionId)

end Exchange

/-! ## The rotation -/

section Rotation

variable (C : Crates) (drawn : Drawn) (masterKey : String) (policy : DeviceSessionPolicy)
  (now : Int)

/-- What the rotation reads of a credential, its family, its device and its user. -/
structure RefreshRow where
  familyId : String
  deviceId : String
  userId : Int
  serverInstanceId : String
  generation : Int
  credentialStatus : CredentialStatus
  expiresAt : Stamp
  familyStatus : FamilyStatus
  familyVersion : Int
  refreshAbsoluteExpiresAt : Stamp
  deviceStatus : DeviceStatus
  deviceVersion : Int
  userStatus : String

/-- The `JOIN`. -/
def Store.findRefresh (s : Store) (refreshTokenHash : String) : Option RefreshRow := do
  let refresh ← s.credentials.find? (·.refreshTokenHash == refreshTokenHash)
  let family ← s.families.find? (·.id == refresh.familyId)
  let device ← s.devices.find? (·.id == refresh.deviceId)
  let user ← s.users.find? (·.id == refresh.userId)
  pure { familyId := refresh.familyId, deviceId := refresh.deviceId, userId := refresh.userId
         serverInstanceId := refresh.serverInstanceId, generation := refresh.generation
         credentialStatus := refresh.status, expiresAt := refresh.expiresAt
         familyStatus := family.status, familyVersion := family.authorizationVersion
         refreshAbsoluteExpiresAt := family.refreshAbsoluteExpiresAt
         deviceStatus := device.status, deviceVersion := device.authorizationVersion
         userStatus := user.status }

def truncateMetadata (value : String) (maxChars : Nat) : String :=
  String.ofList ((trim value).toList.take maxChars)

def revokeFamilyInTransaction (userId : Int) (familyId reason : String) : Transaction Unit := do
  let reason := truncateMetadata reason 128
  let count (s : Store) := (s.families.filter (Store.revocable familyId userId)).length
  let updated ← update count fun s =>
    s.revokeFamilyRow familyId userId (timestamp now) reason
  if updated ≠ 1 then do
    let owned ← select fun s => s.families.any fun f => f.id == familyId && f.userId == userId
    Tx.fail (if owned then .familyRevoked else .invalidRequest "设备会话不存在")
  else do
    execute fun s => s.revokeSessions (·.familyId == familyId) (timestamp now) reason
    execute fun s => s.revokeCredentials familyId (timestamp now) reason

/-- A rotation that cannot be answered: its family is revoked. -/
def revokeRotated (row : RefreshRow) (sourceGeneration : Int) (reason : String) (erases : Bool)
    (error : DeviceSessionError) : Transaction Credentials := do
  revokeFamilyInTransaction now row.userId row.familyId reason
  execute fun s => s.markRotation row.familyId sourceGeneration (timestamp now) erases
  Tx.fail error

/-- The answer to a generation that was rotated before. -/
def answerRotated (row : RefreshRow) (rotation : RotationRow) (sourceGeneration : Int)
    (transactionId sourceRefreshTokenHash : String) : Transaction Credentials :=
  if rotation.transactionId ≠ transactionId then
    revokeRotated now row sourceGeneration "refresh_replay" false .refreshReplay
  else do
    let resultExpiresAt ← Tx.ofExcept (parseTimestamp rotation.resultExpiresAt)
    if resultExpiresAt ≤ now then
      revokeRotated now row sourceGeneration "rotation_recovery_expired" true
        .rotationRecoveryFailed
    else
      match openCredentials C masterKey rotation.resultCiphertext
          (refreshRotationAad row.familyId row.deviceId policy.serverInstanceId sourceGeneration
            transactionId sourceRefreshTokenHash) with
      | some credentials => pure credentials
      | none =>
        revokeRotated now row sourceGeneration "rotation_recovery_failed" false
          .rotationRecoveryFailed

/-- The credentials of the next generation. -/
def nextCredentials (row : RefreshRow) (sourceGeneration refreshAbsoluteExpiresAt : Int) :
    Credentials :=
  { accessToken := issueToken deviceAccessTokenHead drawn.accessEntropy
    refreshToken := issueToken deviceRefreshTokenHead drawn.refreshEntropy
    deviceId := row.deviceId, familyId := row.familyId, userId := row.userId
    generation := sourceGeneration + 1, authorizationVersion := row.deviceVersion, issuedAt := now
    accessExpiresAt := now + seconds policy.accessTtlSeconds
    refreshExpiresAt :=
      min (now + seconds policy.refreshSlidingTtlSeconds) refreshAbsoluteExpiresAt
    refreshAbsoluteExpiresAt, serverInstanceId := policy.serverInstanceId }

/-- The rotation from the credentials on. -/
def issueRotation (row : RefreshRow) (sourceGeneration : Int)
    (transactionId sourceRefreshTokenHash : String) (credentials : Credentials) :
    Transaction Credentials := do
  let ciphertext ← Tx.ofExcept (sealCredentials C drawn.nonce masterKey credentials
    (refreshRotationAad row.familyId row.deviceId policy.serverInstanceId sourceGeneration
      transactionId sourceRefreshTokenHash))
  let consumed ← update
    (fun s => (s.credentials.filter (Store.isActiveCredential sourceRefreshTokenHash)).length)
    fun s => s.rotateCredential sourceRefreshTokenHash (timestamp now)
  Tx.rejectIf (consumed ≠ 1) (invalidState "refresh_rotation_cas_failed")
  execute fun s => s.revokeSessions
    (fun a => a.familyId == row.familyId && a.generation == sourceGeneration) (timestamp now)
    "refresh_rotated"
  insertSessionOf C drawn policy now credentials
  insertCredentialOf C drawn policy now credentials
  execute fun s => s.slideFamily row.familyId (timestamp credentials.refreshExpiresAt)
    (timestamp now)
  insert fun s => s.insertRotation
    { id := drawn.rotationId, familyId := row.familyId, deviceId := row.deviceId
      userId := row.userId, serverInstanceId := policy.serverInstanceId, sourceGeneration
      sourceRefreshTokenHash, transactionId, status := .completed, resultCiphertext := ciphertext
      resultExpiresAt := timestamp (now + seconds policy.idempotencyTtlSeconds)
      updatedAt := timestamp now }
  pure credentials

/-- The rotation of a generation that was not rotated before. -/
def rotateFresh (row : RefreshRow) (sourceGeneration : Int)
    (transactionId sourceRefreshTokenHash : String) : Transaction Credentials := do
  Tx.rejectIf (row.credentialStatus ≠ .active) .invalidRefreshToken
  let refreshExpiresAt ← Tx.ofExcept (parseTimestamp row.expiresAt)
  let refreshAbsoluteExpiresAt ← Tx.ofExcept (parseTimestamp row.refreshAbsoluteExpiresAt)
  if refreshExpiresAt ≤ now ∨ refreshAbsoluteExpiresAt ≤ now then do
    execute fun s => s.expireCredential sourceRefreshTokenHash (timestamp now)
    Tx.fail .refreshExpired
  else do
    let inUse ← select fun s => s.rotations.any (·.transactionId == transactionId)
    Tx.rejectIf (inUse = true) (.invalidRequest "transaction_id 已用于其他 rotation")
    issueRotation C drawn masterKey policy now row sourceGeneration transactionId
      sourceRefreshTokenHash
      (nextCredentials drawn policy now row sourceGeneration refreshAbsoluteExpiresAt)

def requireUsable (row : RefreshRow) (sourceGeneration : Int) (requestedDeviceId : String) :
    Except DeviceSessionError Unit := do
  rejectIf (row.deviceId ≠ requestedDeviceId ∨ row.serverInstanceId ≠ policy.serverInstanceId
    ∨ row.generation ≠ sourceGeneration) .invalidRefreshToken
  rejectIf (row.userStatus ≠ "active") .userInactive
  rejectIf (row.deviceStatus ≠ .active) .deviceRevoked
  rejectIf (row.familyStatus ≠ .active) .familyRevoked
  rejectIf (row.familyVersion ≠ row.deviceVersion) .familyRevoked

def rotateRefreshInTransaction (sourceRefreshTokenHash : String) (sourceGeneration : Int)
    (transactionId requestedDeviceId : String) : Transaction Credentials := do
  let found ← select fun s => s.findRefresh sourceRefreshTokenHash
  let row ← Tx.okOr found .invalidRefreshToken
  Tx.ofExcept (requireUsable policy row sourceGeneration requestedDeviceId)
  let rotation ← select fun s => s.rotations.find? fun r =>
    r.familyId == row.familyId && r.sourceGeneration == sourceGeneration
  match rotation with
  | some rotation =>
    answerRotated C masterKey policy now row rotation sourceGeneration transactionId
      sourceRefreshTokenHash
  | none =>
    rotateFresh C drawn masterKey policy now row sourceGeneration transactionId
      sourceRefreshTokenHash

def rotateRefreshToken (input : RotateRefreshInput) : Transaction Credentials := do
  Tx.ofExcept (validatePolicy policy)
  Tx.rejectIf (isDeviceRefreshToken input.refreshToken = false ∨ input.generation < 0)
    .invalidRefreshToken
  let transactionId ← Tx.ofExcept (normalizeTransactionIdDomain C input.transactionId)
  Tx.rejectIf (trim input.deviceId = "" ∨ input.serverInstanceId ≠ policy.serverInstanceId)
    .invalidRefreshToken
  inTransaction (rotateRefreshInTransaction C drawn masterKey policy now
    (hashDeviceToken C input.refreshToken) input.generation transactionId input.deviceId)

end Rotation

end Sessions
end Devices
end Yuance
