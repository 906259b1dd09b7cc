import Yuance.Devices.Sessions
import Yuance.Lib.Runs

/-!
# Yuance.Devices.SessionCalls

The other calls of `api/src/domains/device_sessions.rs` beside those of `Yuance.Devices.Sessions`,
what `api/src/domains/users.rs` writes into the same tables, and the runs of the server. A call is
one transaction; what some read before their transaction can only end them, and is left out.

* `Tables`: the tables of the sessions, with the columns that only these calls read.
* `Call`, `Call.transaction`: the calls.
* `serve`: one call after another, whatever breaks.
-/

namespace Yuance
namespace Devices
namespace Sessions

open Lib Platform

/-! ## Tables -/

/-- The columns `user_code_hash` and `created_at` of an authorization. -/
structure ReviewRow where
  authorizationId : String
  userCodeHash : String
  createdAt : Stamp
  deriving DecidableEq

/-- The names in a row of `users`. -/
structure ProfileRow where
  id : Int
  username : String
  displayName : String
  isSuperAdmin : Bool
  deriving DecidableEq

structure Tables where
  store : Store
  reviews : List ReviewRow
  profiles : List ProfileRow

abbrev Work (α : Type) := Tx Tables DeviceSessionError α

def Tables.keepStore (t : Tables) (s : Store) : Tables := { t with store := s }

/-- A transaction that works on the tables of the sessions alone. -/
def onStore {α : Type} (p : Transaction α) : Work α := Tx.zoom Tables.store Tables.keepStore p

def read {α : Type} (f : Tables → α) : Work α := Tx.select .storageFailure f

def write (f : Tables → Tables) : Work Unit := Tx.execute .storageFailure f

/-- A statement that also gives the number of rows it wrote. -/
def modify (affected : Tables → Nat) (f : Tables → Tables) : Work Nat :=
  Tx.statement .storageFailure fun t => (f t, .ok (affected t))

/-- `BEGIN IMMEDIATE` to `finish_transaction`. -/
def transacted {α : Type} (p : Work α) : Work α :=
  Tx.atomically .storageFailure transactionShouldCommit p

/-- A transaction that an error always takes back, as one statement alone does. -/
def committed {α : Type} (p : Work α) : Work α :=
  Tx.atomically .storageFailure (fun r => r.toOption.isSome) p

/-! ## User codes -/

def userCodeAlphabet : List Char := "23456789ABCDEFGHJKLMNPQRSTUVWXYZ".toList

def userCodeSymbols : Nat := 10

/-- What the calls use beside `Crates`. -/
structure UserCodes where
  /-- `char::to_uppercase`. -/
  toUppercase : Char → List Char
  /-- The HMAC of a normalized code under a key that HKDF derives from the master key. -/
  mac : String → String → String

def normalizeUserCode (U : UserCodes) (value : String) : Except DeviceSessionError String := do
  let normalized := String.ofList ((value.toList.filter fun c => !(c == '-' || c == ' ')).flatMap
    U.toUppercase)
  rejectIf (byteLen normalized ≠ userCodeSymbols ∨
    normalized.toList.all userCodeAlphabet.contains = false) .invalidUserCode
  pure normalized

def hashUserCode (U : UserCodes) (masterKey value : String) : Except DeviceSessionError String := do
  let normalized ← normalizeUserCode U value
  rejectIf (byteLen (trim masterKey) < 16) .cryptoFailure
  pure (U.mac masterKey normalized)

/-- `issue_user_code` of the drawn bytes. -/
def issueUserCode (entropy : FixedBytes 10) : String :=
  let symbols := entropy.val.map fun byte => userCodeAlphabet.getD (byte.toNat % 32) '2'
  String.ofList (symbols.take 5 ++ '-' :: symbols.drop 5)

/-! ## Start -/

structure StartAuthorizationInput where
  codeChallenge : String
  installationId : String
  deviceName : String
  platform : String
  clientVersion : String

structure StartedAuthorization where
  authorizationId : String
  deviceCode : String
  userCode : String
  expiresAt : Int
  intervalSeconds : Int
  serverInstanceId : String
  deriving DecidableEq

/-- What one turn of the loop draws. -/
structure StartDraw where
  authorizationId : String
  deviceEntropy : FixedBytes 32
  userEntropy : FixedBytes 10

def StartDraw.deviceCode (draw : StartDraw) : String := issueToken deviceCodeHead draw.deviceEntropy

def maxActiveAuthorizations : Nat := 500

def expiredAuthorizationRetentionSeconds : Int := 60 * 60

def validateCodeChallenge (value : String) : Except DeviceSessionError Unit :=
  let invalid := DeviceSessionError.invalidRequest
    "code_challenge 必须是 canonical S256 Base64URL"
  match Base64.decode Base64.urlSafeNoPad value with
  | none => .error invalid
  | some decoded =>
    rejectIf (decoded.length ≠ 32 ∨ Base64.encode Base64.urlSafeNoPad decoded ≠ value) invalid

def validateMetadata (field value : String) (min max : Nat) : Except DeviceSessionError Unit :=
  rejectIf (¬ (min ≤ charCount (trim value) ∧ charCount (trim value) ≤ max))
    (.invalidRequest (field ++ " 长度必须在 " ++ toString min ++ " 到 " ++ toString max ++ " 之间"))

def isOpen (status : AuthorizationStatus) : Bool := status == .pending || status == .approved

/-- `expires_at <= now`, as texts. -/
def isReached (at' now : Stamp) : Bool := !decide (now.text < at'.text)

namespace Tables

variable (t : Tables)

def updateAuthorizations (p : AuthorizationRow → Bool) (f : AuthorizationRow → AuthorizationRow) :
    Tables :=
  { t with store := { t.store with authorizations := updateWhere p f t.store.authorizations } }

def expireAuthorizations (p : AuthorizationRow → Bool) (now : Stamp) : Tables :=
  t.updateAuthorizations p fun a => { a with status := .expired, updatedAt := now }

/-- The time of an authorization is over, and no call has marked it. -/
def isOverdue (now : Stamp) (a : AuthorizationRow) : Bool :=
  isOpen a.status && isReached a.expiresAt now

/-- `NOT EXISTS (SELECT 1 FROM device_credential_families ..)`. -/
def isUnused (a : AuthorizationRow) : Bool :=
  !t.store.families.any fun f => f.authorizationId == a.id

def deleteAuthorizations (p : AuthorizationRow → Bool) : Tables :=
  { t with
    store := { t.store with authorizations := t.store.authorizations.filter fun a => !p a }
    reviews := t.reviews.filter fun r =>
      !t.store.authorizations.any fun a => a.id == r.authorizationId && p a }

/-- The insert, and whether a unique column refused it. -/
def insertAuthorization (row : AuthorizationRow) (review : ReviewRow) : Tables × Bool :=
  if t.store.authorizations.any (fun a => a.id == row.id || a.deviceCodeHash == row.deviceCodeHash)
      || t.reviews.any (·.userCodeHash == review.userCodeHash) then (t, false)
  else
    ({ t with
      store := { t.store with authorizations := t.store.authorizations ++ [row] }
      reviews := t.reviews ++ [review] }, true)

end Tables

section Calls

variable (C : Crates) (U : UserCodes) (masterKey : String) (policy : DeviceSessionPolicy)
  (now : Int)

def prepareAuthorizationCapacity : Work Unit := do
  write fun t => t.expireAuthorizations
    (fun a => a.serverInstanceId == policy.serverInstanceId && Tables.isOverdue (timestamp now) a)
    (timestamp now)
  let parsed ← Tx.ofExcept (parseTimestamp (timestamp now))
  let cutoff := timestamp (parsed - seconds expiredAuthorizationRetentionSeconds)
  write fun t => t.deleteAuthorizations fun a =>
    a.serverInstanceId == policy.serverInstanceId && a.status == .expired
      && isReached a.updatedAt cutoff && t.isUnused a
  let active ← read fun t => (t.store.authorizations.filter fun a =>
    a.serverInstanceId == policy.serverInstanceId && isOpen a.status).length
  Tx.rejectIf (active ≥ maxActiveAuthorizations) (.slowDown 60)

def authorizationRow (input : StartAuthorizationInput) (draw : StartDraw) : AuthorizationRow where
  id := draw.authorizationId
  deviceCodeHash := hashDeviceToken C draw.deviceCode
  codeChallenge := input.codeChallenge
  serverInstanceId := policy.serverInstanceId
  installationId := trim input.installationId
  deviceName := trim input.deviceName
  platform := trim input.platform
  clientVersion := trim input.clientVersion
  status := .pending
  approvedUserId := none
  exchangeTransactionId := none
  exchangeResultCiphertext := ""
  exchangeResultExpiresAt := none
  pollIntervalSeconds := policy.pollIntervalSeconds
  nextPollAt := timestamp now
  expiresAt := timestamp (now + seconds policy.authorizationTtlSeconds)
  consumedAt := none
  updatedAt := timestamp now

/-- The loop over the draws. -/
def insertDrawn (input : StartAuthorizationInput) : List StartDraw → Work StartedAuthorization
  | [] => Tx.fail (invalidState "生成唯一授权 code 失败")
  | draw :: draws => do
    let userCodeHash ← Tx.ofExcept (hashUserCode U masterKey (issueUserCode draw.userEntropy))
    let inserted ← Tx.statement .storageFailure fun t =>
      let result := t.insertAuthorization (authorizationRow C policy now input draw)
        { authorizationId := draw.authorizationId, userCodeHash, createdAt := timestamp now }
      (result.1, .ok result.2)
    if inserted then
      pure
        { authorizationId := draw.authorizationId
          deviceCode := draw.deviceCode
          userCode := issueUserCode draw.userEntropy
          expiresAt := now + seconds policy.authorizationTtlSeconds
          intervalSeconds := policy.pollIntervalSeconds
          serverInstanceId := policy.serverInstanceId }
    else insertDrawn input draws

def validateStart (input : StartAuthorizationInput) : Except DeviceSessionError Unit := do
  validatePolicy policy
  validateCodeChallenge input.codeChallenge
  validateMetadata "installation_id" input.installationId 1 128
  validateMetadata "device_name" input.deviceName 1 128
  validateMetadata "platform" input.platform 1 64
  validateMetadata "client_version" input.clientVersion 1 64

/-- The loop takes five turns. -/
def startAuthorization (draws : Fin 5 → StartDraw) (input : StartAuthorizationInput) :
    Work StartedAuthorization := do
  Tx.ofExcept (validateStart policy input)
  transacted do
    prepareAuthorizationCapacity policy now
    insertDrawn C U masterKey policy now input (List.ofFn draws)

/-! ## Review and decision -/

structure AuthorizationReview where
  authorizationId : String
  deviceName : String
  platform : String
  clientVersion : String
  createdAt : Int
  expiresAt : Int
  deriving DecidableEq

def Tables.reviewed (t : Tables) (userCodeHash serverInstanceId : String) (a : AuthorizationRow) :
    Bool :=
  a.serverInstanceId == serverInstanceId &&
    t.reviews.any fun r => r.authorizationId == a.id && r.userCodeHash == userCodeHash

/-- `match` on the status of the authorization that is reviewed. -/
def requirePending : AuthorizationStatus → Except DeviceSessionError Unit
  | .pending => .ok ()
  | .approved => .error .authorizationConsumed
  | .consumed => .error .authorizationConsumed
  | .denied => .error .authorizationDenied
  | .expired => .error .authorizationExpired

/-- `expire_authorization_by_user_code`. -/
def expireByUserCode (userCodeHash serverInstanceId : String) : Work Unit :=
  write fun t => t.expireAuthorizations
    (fun a => t.reviewed userCodeHash serverInstanceId a && a.status == .pending
      && isReached a.expiresAt (timestamp now)) (timestamp now)

/-- The reading behind the marking, which is a statement of its own. -/
def authorizationForReview (serverInstanceId userCode : String) : Work AuthorizationReview := do
  let userCodeHash ← Tx.ofExcept (hashUserCode U masterKey userCode)
  let found ← read fun t => (t.store.authorizations.find? (t.reviewed userCodeHash
    serverInstanceId)).bind fun a => (t.reviews.find? (·.authorizationId == a.id)).map fun r =>
    (a, r)
  let (row, review) ← Tx.okOr found .invalidUserCode
  Tx.ofExcept (requirePending row.status)
  let createdAt ← Tx.ofExcept (parseTimestamp review.createdAt)
  let expiresAt ← Tx.ofExcept (parseTimestamp row.expiresAt)
  pure
    { authorizationId := row.id, deviceName := row.deviceName, platform := row.platform
      clientVersion := row.clientVersion, createdAt, expiresAt }

def classifyDecisionFailure (authorizationId : String) : Work Unit := do
  let found ← read fun t => t.store.authorizations.find? (·.id == authorizationId)
  let row ← Tx.okOr found .invalidUserCode
  let expiresAt ← Tx.ofExcept (parseTimestamp row.expiresAt)
  if expiresAt ≤ now ∧ row.status = .pending then do
    write fun t => t.expireAuthorizations
      (fun a => a.id == authorizationId && a.status == .pending) (timestamp now)
    Tx.fail .authorizationExpired
  else
    match row.status with
    | .approved => Tx.fail .authorizationConsumed
    | .consumed => Tx.fail .authorizationConsumed
    | .denied => Tx.fail .authorizationDenied
    | .expired => Tx.fail .authorizationExpired
    | .pending => Tx.fail (invalidState "pending")

/-- The rows that a decision may still be made of. -/
def isDecidable (authorizationId : String) (now : Stamp) (a : AuthorizationRow) : Bool :=
  a.id == authorizationId && a.status == .pending && !isReached a.expiresAt now

/-- A user approves the authorization, or it is denied. -/
def writeDecision (authorizationId : String) (userId : Option Int) : Work Unit := do
  let decided := isDecidable authorizationId (timestamp now)
  let updated ← modify (fun t => (t.store.authorizations.filter decided).length) fun t =>
    t.updateAuthorizations decided fun a =>
      { a with
        status := if userId.isSome then .approved else .denied
        approvedUserId := userId
        updatedAt := timestamp now }
  if updated = 1 then pure () else classifyDecisionFailure now authorizationId

def decideAuthorization (authorizationId : String) : Option Int → Work Unit
  | some userId => transacted do
    onStore (ensureActiveUser userId)
    writeDecision now authorizationId (some userId)
  | none => transacted (writeDecision now authorizationId none)

def approveAuthorization (authorizationId : String) (userId : Int) : Work Unit :=
  decideAuthorization now authorizationId (some userId)

def denyAuthorization (authorizationId : String) : Work Unit :=
  decideAuthorization now authorizationId none

/-! ## Poll -/

structure AuthorizationPoll where
  status : AuthorizationStatus
  intervalSeconds : Int
  deriving DecidableEq

def pollInTransaction (deviceCodeHash serverInstanceId : String) :
    Transaction AuthorizationPoll := do
  let found ← select fun s => s.findAuthorization deviceCodeHash serverInstanceId
  let row ← Tx.okOr found .invalidDeviceCode
  let expiresAt ← Tx.ofExcept (parseTimestamp row.expiresAt)
  if expiresAt ≤ now ∧ isOpen row.status = true then do
    execute fun s => s.expireAuthorization row.id (timestamp now)
    Tx.fail .authorizationExpired
  else if isOpen row.status then do
    enforcePollGate now row
    pure { status := row.status, intervalSeconds := row.pollIntervalSeconds }
  else pure { status := row.status, intervalSeconds := row.pollIntervalSeconds }

def pollAuthorization (deviceCode serverInstanceId : String) : Work AuthorizationPoll := do
  let deviceCodeHash ← Tx.ofExcept (checkedDeviceCodeHash C deviceCode)
  onStore (inTransaction (pollInTransaction now deviceCodeHash serverInstanceId))

/-- `exchange_authorization` without the reading before its transaction, which can only end it. -/
def exchangeBehindReading (drawn : Drawn) (input : ExchangeAuthorizationInput) :
    Transaction Credentials := do
  Tx.ofExcept (validatePolicy policy)
  Tx.ofExcept (validateCodeVerifier input.codeVerifier)
  let transactionId ← Tx.ofExcept (normalizeTransactionIdDomain C input.exchangeTransactionId)
  let deviceCodeHash ← Tx.ofExcept (checkedDeviceCodeHash C input.deviceCode)
  inTransaction (exchangeInTransaction C drawn masterKey policy now deviceCodeHash
    input.codeVerifier transactionId)

/-! ## Access -/

structure AuthenticatedDeviceAccess where
  accessSessionId : String
  userId : Int
  username : String
  displayName : String
  isSuperAdmin : Bool
  deviceId : String
  familyId : String
  generation : Int
  authorizationVersion : Int
  accessExpiresAt : Int
  serverInstanceId : String
  deriving DecidableEq

/-- What the check of an access token reads. -/
structure AccessRow where
  session : SessionRow
  family : FamilyRow
  device : DeviceRow
  user : UserRow
  profile : ProfileRow

/-- The `JOIN`. -/
def Tables.findAccess (t : Tables) (accessTokenHash serverInstanceId : String) :
    Option AccessRow := do
  let session ← t.store.sessions.find? fun a =>
    a.accessTokenHash == accessTokenHash && a.serverInstanceId == serverInstanceId
  let family ← t.store.families.find? (·.id == session.familyId)
  let device ← t.store.devices.find? (·.id == session.deviceId)
  let user ← t.store.users.find? (·.id == session.userId)
  let profile ← t.profiles.find? (·.id == session.userId)
  pure { session, family, device, user, profile }

def isDeviceAccessToken (value : String) : Bool := validTokenWithHead value deviceAccessTokenHead

def requireLive (row : AccessRow) : Except DeviceSessionError Unit := do
  rejectIf (row.user.status ≠ "active") .userInactive
  rejectIf (row.device.status ≠ .active) .deviceRevoked
  rejectIf (row.family.status ≠ .active) .familyRevoked
  rejectIf (row.session.status ≠ .active) .invalidAccessToken

def updateSessions (p : SessionRow → Bool) (f : SessionRow → SessionRow) (t : Tables) : Tables :=
  { t with store := { t.store with sessions := updateWhere p f t.store.sessions } }

def seeDevice (deviceId : String) (now : Stamp) (t : Tables) : Tables :=
  { t with
    store := { t.store with
      devices := updateWhere (fun d => d.id == deviceId && d.status == .active)
        (fun d => { d with lastSeenAt := now, updatedAt := now }) t.store.devices } }

def authenticateAccessInTransaction (accessTokenHash serverInstanceId : String) :
    Work AuthenticatedDeviceAccess := do
  let found ← read fun t => t.findAccess accessTokenHash serverInstanceId
  let row ← Tx.okOr found .invalidAccessToken
  Tx.ofExcept (requireLive row)
  let expiresAt ← Tx.ofExcept (parseTimestamp row.session.expiresAt)
  let current (a : SessionRow) := a.id == row.session.id && a.status == .active
  if expiresAt ≤ now then do
    write (updateSessions current fun a =>
      { a with status := .expired, updatedAt := timestamp now })
    Tx.fail .accessExpired
  else do
    Tx.rejectIf (row.session.authorizationVersion ≠ row.device.authorizationVersion)
      .invalidAccessToken
    write (updateSessions current fun a =>
      { a with lastSeenAt := timestamp now, updatedAt := timestamp now })
    write (seeDevice row.session.deviceId (timestamp now))
    pure
      { accessSessionId := row.session.id
        userId := row.session.userId
        username := row.profile.username
        displayName := row.profile.displayName
        isSuperAdmin := row.profile.isSuperAdmin
        deviceId := row.session.deviceId
        familyId := row.session.familyId
        generation := row.session.generation
        authorizationVersion := row.session.authorizationVersion
        accessExpiresAt := expiresAt
        serverInstanceId := row.session.serverInstanceId }

def authenticateAccessToken (rawToken serverInstanceId : String) :
    Work AuthenticatedDeviceAccess := do
  Tx.rejectIf (isDeviceAccessToken rawToken = false) .invalidAccessToken
  transacted (authenticateAccessInTransaction now (hashDeviceToken C rawToken) serverInstanceId)

/-! ## Revocation -/

def revokeFamilyForUser (userId : Int) (familyId reason : String) : Work Unit :=
  onStore (inTransaction (revokeFamilyInTransaction now userId familyId reason))

/-- What `change_own_password` does to the families: all but the one of the device that asks. Its
times of a family are `datetime('now')` in the source, the shorter text; no call reads them. -/
def Tables.revokeOtherFamilies (t : Tables) (now : Int) (userId : Int)
    (currentFamily : Option String) : Tables :=
  t.keepStore (t.store.updateFamilies
    (fun f => f.userId == userId && f.status == .active
      && currentFamily.all fun familyId => f.id != trim familyId)
    (fun f =>
      { f with
        status := .revoked
        authorizationVersion := f.authorizationVersion + 1
        revokedAt := some (timestamp now)
        revokeReason := "self_password_change"
        updatedAt := timestamp now }) fun _ => rfl)

def changeOwnPassword (userId : Int) (currentFamily : Option String) : Work Unit :=
  committed (write fun t => t.revokeOtherFamilies now userId currentFamily)

/-- What `set_user_status` does to these tables. -/
def Tables.setUserStatus (t : Tables) (userId : Int) (status : String) : Tables :=
  t.keepStore { t.store with
    users := updateWhere (·.id == userId) (fun u => { u with status }) t.store.users }

def setUserStatus (userId : Int) (status : String) : Work Unit :=
  committed (write fun t => t.setUserStatus userId status)

/-! ## Clean-up -/

def validCleanupLimit (limit : Int) (name : String) : Except DeviceSessionError Unit :=
  rejectIf (¬ (1 ≤ limit ∧ limit ≤ 1000)) (.invalidRequest (name ++ " 必须介于 1 和 1000"))

/-- `ORDER BY time LIMIT limit`: the ids. -/
def earliest {α : Type} (time : α → Stamp) (id : α → String) (limit : Int) (rows : List α) :
    List String :=
  ((orderBy (fun a b => !decide ((time b).text < (time a).text)) rows).take limit.toNat).map id

def cleanupExpiredRotationResults (limit : Int) : Work Nat := do
  Tx.ofExcept (validCleanupLimit limit "rotation cleanup limit")
  let spent (r : RotationRow) := isReached r.resultExpiresAt (timestamp now)
    && r.resultCiphertext != ""
  let chosen (t : Tables) := earliest RotationRow.resultExpiresAt (·.id) limit
    (t.store.rotations.filter spent)
  modify (fun t => (chosen t).length) fun t => t.keepStore { t.store with
    rotations := updateWhere (fun r => (chosen t).contains r.id)
      (fun r => { r with resultCiphertext := "", updatedAt := timestamp now }) t.store.rotations }

def cleanupExpiredAuthorizations (limit : Int) : Work Nat := do
  Tx.ofExcept (validCleanupLimit limit "authorization cleanup limit")
  let cutoff := timestamp (now - seconds expiredAuthorizationRetentionSeconds)
  let overdue := Tables.isOverdue (timestamp now)
  let old (t : Tables) (a : AuthorizationRow) := (a.status == .expired || a.status == .denied)
    && isReached a.updatedAt cutoff && t.isUnused a
  let chosen (t : Tables) := earliest AuthorizationRow.updatedAt (·.id) limit
    (t.store.authorizations.filter (old t))
  committed do
    let expired ← modify (fun t => (t.store.authorizations.filter overdue).length) fun t =>
      t.expireAuthorizations overdue (timestamp now)
    let deleted ← modify (fun t => (chosen t).length) fun t =>
      t.deleteAuthorizations fun a => (chosen t).contains a.id
    pure (expired + deleted)

def eraseExpiredExchangeResults : Work Nat :=
  let spent (a : AuthorizationRow) := a.status == .consumed && a.exchangeResultCiphertext != ""
    && a.exchangeResultExpiresAt.any fun at' => isReached at' (timestamp now)
  modify (fun t => (t.store.authorizations.filter spent).length) fun t =>
    t.updateAuthorizations spent fun a =>
      { a with exchangeResultCiphertext := "", updatedAt := timestamp now }

end Calls

/-! ## Runs -/

/-- What the server runs with. -/
structure Server where
  crates : Crates
  userCodes : UserCodes
  masterKey : String
  policy : DeviceSessionPolicy

inductive Call where
  | start (draws : Fin 5 → StartDraw) (input : StartAuthorizationInput)
  | expireByUserCode (userCodeHash serverInstanceId : String)
  | review (serverInstanceId userCode : String)
  | approve (authorizationId : String) (userId : Int)
  | deny (authorizationId : String)
  | poll (deviceCode serverInstanceId : String)
  | exchange (drawn : Drawn) (input : ExchangeAuthorizationInput)
  | rotate (drawn : Drawn) (input : RotateRefreshInput)
  | authenticate (rawToken serverInstanceId : String)
  | revoke (userId : Int) (familyId reason : String)
  | changeOwnPassword (userId : Int) (currentFamily : Option String)
  | setUserStatus (userId : Int) (status : String)
  | cleanupRotations (limit : Int)
  | cleanupAuthorizations (limit : Int)
  | eraseExchangeResults

inductive Answer where
  | started (authorization : StartedAuthorization)
  | review (review : AuthorizationReview)
  | poll (poll : AuthorizationPoll)
  | credentials (credentials : Credentials)
  | access (access : AuthenticatedDeviceAccess)
  | affected (count : Nat)
  | done

def Call.transaction (S : Server) (now : Int) : Call → Work Answer
  | start draws input => do
    let started ← startAuthorization S.crates S.userCodes S.masterKey S.policy now draws input
    pure (.started started)
  | expireByUserCode userCodeHash serverInstanceId => do
    Sessions.expireByUserCode now userCodeHash serverInstanceId
    pure .done
  | review serverInstanceId userCode => do
    let review ← authorizationForReview S.userCodes S.masterKey serverInstanceId userCode
    pure (.review review)
  | approve authorizationId userId => do
    approveAuthorization now authorizationId userId
    pure .done
  | deny authorizationId => do
    denyAuthorization now authorizationId
    pure .done
  | poll deviceCode serverInstanceId => do
    let poll ← pollAuthorization S.crates now deviceCode serverInstanceId
    pure (.poll poll)
  | exchange drawn input => do
    let credentials ← onStore
      (exchangeBehindReading S.crates S.masterKey S.policy now drawn input)
    pure (.credentials credentials)
  | rotate drawn input => do
    let credentials ← onStore (rotateRefreshToken S.crates drawn S.masterKey S.policy now input)
    pure (.credentials credentials)
  | authenticate rawToken serverInstanceId => do
    let access ← authenticateAccessToken S.crates now rawToken serverInstanceId
    pure (.access access)
  | revoke userId familyId reason => do
    revokeFamilyForUser now userId familyId reason
    pure .done
  | changeOwnPassword userId currentFamily => do
    Sessions.changeOwnPassword now userId currentFamily
    pure .done
  | setUserStatus userId status => do
    Sessions.setUserStatus userId status
    pure .done
  | cleanupRotations limit => do
    let count ← cleanupExpiredRotationResults now limit
    pure (.affected count)
  | cleanupAuthorizations limit => do
    let count ← cleanupExpiredAuthorizations now limit
    pure (.affected count)
  | eraseExchangeResults => do
    let count ← eraseExpiredExchangeResults now
    pure (.affected count)

/-- A call, the time it takes for now, and which of its statements break. -/
structure Event where
  call : Call
  now : Int
  faults : Faults

abbrev Outcome := Except DeviceSessionError Answer

/-- The calls are served one after another (`BEGIN IMMEDIATE`). -/
def serve (S : Server) (t : Tables) (e : Event) : Option (Tables × Outcome) :=
  let left := e.call.transaction S e.now e.faults 0 t
  some (left.2.1, left.2.2)

end Sessions
end Devices
end Yuance
