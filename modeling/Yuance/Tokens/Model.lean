import Yuance.Lib.Table
import Yuance.Lib.Calls
import Yuance.Projects.Validation

/-!
# Yuance.Tokens.Model

The access tokens of `api/src/domains/api_tokens.rs` and `api/src/domains/system_api_tokens.rs`. A
time is the text that `datetime('now')` gives; the list of scopes that is stored as JSON reads back as
it was. The bytes of a token and the nonce of its encryption are drawn by the caller of the model.

* `createToken`, `revokeToken`, `deleteToken`: the calls on the tokens of a user.
* `createSystemToken`, `deleteSystemToken`: the calls on the tokens of the system.
-/

namespace Yuance
namespace Tokens

open Lib Platform
open Projects (toAsciiUppercase)

/-- A row of `users`. -/
structure UserRow where
  id : Int
  username : String
  displayName : String
  /-- `status = 'active'`. -/
  active : Bool
  isSuperAdmin : Bool
  deriving DecidableEq, Repr

/-- A row of `api_tokens`. -/
structure ApiTokenRow where
  id : Int
  userId : Int
  name : String
  tokenHash : String
  tokenSuffix : String
  tokenCiphertext : String
  scopes : List String
  projectScope : String
  expiresAt : String
  revokedAt : String
  lastUsedAt : String
  createdAt : String
  updatedAt : String
  deriving DecidableEq, Repr

/-- A row of `system_api_tokens`. -/
structure SystemTokenRow where
  id : Int
  name : String
  tokenHash : String
  tokenSuffix : String
  tokenCiphertext : String
  scopes : List String
  createdByUserId : Int
  updatedByUserId : Int
  lastUsedAt : String
  createdAt : String
  updatedAt : String
  deriving DecidableEq, Repr

structure Db where
  users : List UserRow
  apiTokens : List ApiTokenRow
  nextApiToken : Int
  systemTokens : List SystemTokenRow
  nextSystemToken : Int

def Db.user (db : Db) (id : Int) : Option UserRow := db.users.find? (·.id == id)

/-! ## Checks of the input -/

def maxActiveTokensPerUser : Nat := 100

def maxActiveSystemTokens : Nat := 100

def allowedScopes : List String :=
  ["project:read", "work_item:read", "work_item:write", "comment:write", "resource:read",
    "resource:write", "resource:unlock", "notification:read"]

def allowedSystemScopes : List String := ["system_release:read", "system_release:write"]

/-- `validate_name`, for either kind of token. -/
def validateNameOf (kind name : String) : Except AppError String := do
  rejectIf (trim name = "" ∨ byteLen (trim name) > 80)
    (.badRequest (kind ++ " 名称不能为空且不能超过 80 个字符"))
  pure (trim name)

/-- The loop of `normalize_scopes`. -/
def collectScopes (allowed : List String) (kind : String) (normalized : List String) :
    List String → Except AppError (List String)
  | [] => .ok normalized
  | scope :: rest =>
    if trim scope = "" then collectScopes allowed kind normalized rest
    else if ¬ allowed.contains (trim scope) then
      .error (.badRequest ("不支持的" ++ kind ++ " scope：" ++ trim scope))
    else
      collectScopes allowed kind
        (if normalized.contains (trim scope) then normalized else normalized ++ [trim scope]) rest

/-- `normalize_scopes`, for either kind of token. -/
def normalizeScopesOf (allowed : List String) (kind : String) (scopes : List String) :
    Except AppError (List String) := do
  let normalized ← collectScopes allowed kind [] scopes
  rejectIf (normalized = []) (.badRequest (kind ++ " 至少需要选择一个 scope"))
  pure normalized

def validateName : String → Except AppError String := validateNameOf "访问 Token"

def normalizeScopes : List String → Except AppError (List String) :=
  normalizeScopesOf allowedScopes "访问 Token"

def validateSystemName : String → Except AppError String := validateNameOf "系统访问 Token"

def normalizeSystemScopes : List String → Except AppError (List String) :=
  normalizeScopesOf allowedSystemScopes "系统访问 Token"

/-- `value.eq_ignore_ascii_case(other)`. -/
def eqIgnoreAsciiCase (s t : String) : Bool := toAsciiLowercase s == toAsciiLowercase t

def normalizeProjectScope (projectScope : String) : Except AppError String :=
  if trim projectScope = "" ∨ eqIgnoreAsciiCase (trim projectScope) "all" then .ok "all"
  else do
    rejectIf (byteLen (trim projectScope) > 128) (.badRequest "项目范围不能超过 128 个字符")
    pure (toAsciiUppercase (trim projectScope))

def isExpiryChar (c : Char) : Bool :=
  ('0' ≤ c && c ≤ '9') || c = '-' || c = ':' || c = 'T' || c = 'Z' || c = ' '

def normalizeExpiresAt (expiresAt : String) : Except AppError String :=
  if trim expiresAt = "" then .ok ""
  else do
    rejectIf (byteLen (trim expiresAt) > 32 ∨ ¬ (trim expiresAt).toList.all isExpiryChar)
      (.badRequest "过期时间格式无效，请使用日期或 ISO 时间")
    let spaced := (trim expiresAt).toList.map fun c => if c = 'T' then ' ' else c
    pure (String.ofList (spaced.rdropWhile (· == 'Z')))

/-! ## The secret of a token -/

/-- What a token is made of. -/
structure Draw where
  bytes : FixedBytes 32
  nonce : FixedBytes 12

/-- The cipher, the hash and the key of the server. -/
structure Secrets where
  prims : SecretPrims
  sha256 : Digest
  masterKey : String

def tokenHead : String := "yuance_pat_"

def systemTokenHead : String := "yuance_sys_pat_"

/-- `generate_token`, for either kind of token. -/
def generateToken (head : String) (draw : Draw) : String :=
  head ++ Base64.encode Base64.urlSafeNoPad draw.bytes.val

def hashToken (S : Secrets) (rawToken : String) : String := hexEncode (S.sha256.hash (utf8 rawToken))

def tokenSecretAad (tokenHash : String) : Bytes := utf8 ("api-token:" ++ tokenHash)

def systemTokenSecretAad (tokenHash : String) : Bytes := utf8 ("system-api-token:" ++ tokenHash)

/-- The last eight characters. -/
def suffixOf (rawToken : String) : String :=
  String.ofList ((rawToken.toList.reverse.take 8).reverse)

/-! ## Statements -/

namespace Db

variable (db : Db)

/-- `SELECT COUNT(*) FROM api_tokens WHERE user_id = ?1 AND revoked_at = ''`. -/
def activeTokenCount (userId : Int) : Nat :=
  (db.apiTokens.filter fun t => t.userId == userId && t.revokedAt == "").length

def tokenForUser (userId tokenId : Int) : Option ApiTokenRow :=
  db.apiTokens.find? fun t => t.id == tokenId && t.userId == userId

/-- The row with the names of the users who wrote it. -/
def systemToken (tokenId : Int) : Option (SystemTokenRow × UserRow × UserRow) :=
  (db.systemTokens.find? (·.id == tokenId)).bind fun t =>
    (db.user t.createdByUserId).bind fun created =>
      (db.user t.updatedByUserId).map fun updated => (t, created, updated)

/-- `INSERT INTO api_tokens .. RETURNING id`: the user exists and the hash is new. -/
def insertToken (now : String) (t : ApiTokenRow) : Db × Except AppError Int :=
  if (db.user t.userId).isNone ∨ db.apiTokens.any (·.tokenHash == t.tokenHash) then
    (db, .error .storage)
  else
    ({ db with
       apiTokens := db.apiTokens ++
         [{ t with id := db.nextApiToken, createdAt := now, updatedAt := now }]
       nextApiToken := db.nextApiToken + 1 }, .ok db.nextApiToken)

/-- `UPDATE api_tokens SET revoked_at`, and the number of rows. -/
def revokeToken (now : String) (userId tokenId : Int) : Db × Except AppError Nat :=
  let match? := fun t : ApiTokenRow => t.id == tokenId && t.userId == userId
  ({ db with
     apiTokens := updateWhere match?
       (fun t => { t with
         revokedAt := if t.revokedAt = "" then now else t.revokedAt
         updatedAt := now }) db.apiTokens },
    .ok (db.apiTokens.filter match?).length)

def deleteToken (userId tokenId : Int) : Db :=
  { db with apiTokens := db.apiTokens.filter fun t => !(t.id == tokenId && t.userId == userId) }

def insertSystemToken (now : String) (t : SystemTokenRow) : Db × Except AppError Int :=
  if (db.user t.createdByUserId).isNone ∨ db.systemTokens.any (·.tokenHash == t.tokenHash) then
    (db, .error .storage)
  else
    ({ db with
       systemTokens := db.systemTokens ++
         [{ t with id := db.nextSystemToken, createdAt := now, updatedAt := now }]
       nextSystemToken := db.nextSystemToken + 1 }, .ok db.nextSystemToken)

def deleteSystemToken (tokenId : Int) : Db :=
  { db with systemTokens := db.systemTokens.filter fun t => !(t.id == tokenId) }

end Db

inductive Statement where
  | activeTokenCount (userId : Int)
  | tokenForUser (userId tokenId : Int)
  | insertToken (row : ApiTokenRow)
  | revokeToken (userId tokenId : Int)
  | deleteToken (userId tokenId : Int)
  | systemTokenCount
  | systemToken (tokenId : Int)
  | insertSystemToken (row : SystemTokenRow)
  | deleteSystemToken (tokenId : Int)

abbrev Statement.Answer : Statement → Type
  | activeTokenCount _ => Nat
  | tokenForUser .. => Option ApiTokenRow
  | insertToken _ => Int
  | revokeToken .. => Nat
  | deleteToken .. => Unit
  | systemTokenCount => Nat
  | systemToken _ => Option (SystemTokenRow × UserRow × UserRow)
  | insertSystemToken _ => Int
  | deleteSystemToken _ => Unit

def execute (now : String) (db : Db) : (s : Statement) → Db × Except AppError s.Answer
  | .activeTokenCount userId => (db, .ok (db.activeTokenCount userId))
  | .tokenForUser userId tokenId => (db, .ok (db.tokenForUser userId tokenId))
  | .insertToken row => db.insertToken now row
  | .revokeToken userId tokenId => db.revokeToken now userId tokenId
  | .deleteToken userId tokenId => (db.deleteToken userId tokenId, .ok ())
  | .systemTokenCount => (db, .ok db.systemTokens.length)
  | .systemToken tokenId => (db, .ok (db.systemToken tokenId))
  | .insertSystemToken row => db.insertSystemToken now row
  | .deleteSystemToken tokenId => (db.deleteSystemToken tokenId, .ok ())

/-- The time of a statement, and the error that it fails with if it fails. -/
structure Moment where
  now : String
  fault : Option AppError

def perform (m : Moment) (s : Statement) (db : Db) : Db × Except AppError s.Answer :=
  match m.fault with
  | some e => (db, .error e)
  | none => execute m.now db s

/-! ## Calls -/

abbrev Task (α : Type) := Call Statement Statement.Answer AppError α

def query (s : Statement) : Task s.Answer := Call.make s

structure CreateApiTokenInput where
  name : String
  scopes : List String
  projectScope : String
  expiresAt : String
  deriving DecidableEq, Repr

structure CreateSystemApiTokenInput where
  name : String
  scopes : List String
  deriving DecidableEq, Repr

structure ApiTokenSummary where
  id : Int
  name : String
  scopes : List String
  projectScope : String
  tokenSuffix : String
  expiresAt : String
  revokedAt : String
  lastUsedAt : String
  createdAt : String
  updatedAt : String
  deriving DecidableEq, Repr

structure SystemApiTokenSummary where
  id : Int
  name : String
  scopes : List String
  tokenSuffix : String
  createdByDisplayName : String
  updatedByDisplayName : String
  lastUsedAt : String
  createdAt : String
  updatedAt : String
  deriving DecidableEq, Repr

/-- What the calls return: a summary, and the raw token where one was created. -/
inductive Outcome where
  | token (summary : ApiTokenSummary)
  | created (summary : ApiTokenSummary) (rawToken : String)
  | systemToken (summary : SystemApiTokenSummary)
  | systemCreated (summary : SystemApiTokenSummary) (rawToken : String)
  deriving DecidableEq, Repr

def tokenFromRow (t : ApiTokenRow) : ApiTokenSummary where
  id := t.id
  name := t.name
  scopes := t.scopes
  projectScope := t.projectScope
  tokenSuffix := t.tokenSuffix
  expiresAt := t.expiresAt
  revokedAt := t.revokedAt
  lastUsedAt := t.lastUsedAt
  createdAt := t.createdAt
  updatedAt := t.updatedAt

/-- `COALESCE(NULLIF(display_name, ''), username, '')`. -/
def nameOf (u : UserRow) : String := if u.displayName = "" then u.username else u.displayName

def systemTokenFromRow (found : SystemTokenRow × UserRow × UserRow) : SystemApiTokenSummary where
  id := found.1.id
  name := found.1.name
  scopes := found.1.scopes
  tokenSuffix := found.1.tokenSuffix
  createdByDisplayName := nameOf found.2.1
  updatedByDisplayName := nameOf found.2.2
  lastUsedAt := found.1.lastUsedAt
  createdAt := found.1.createdAt
  updatedAt := found.1.updatedAt

def getTokenForUser (userId tokenId : Int) : Task ApiTokenSummary := do
  let row ← query (.tokenForUser userId tokenId)
  let row ← Call.okOr row (.notFound "访问 Token 不存在")
  pure (tokenFromRow row)

def getSystemToken (tokenId : Int) : Task SystemApiTokenSummary := do
  let row ← query (.systemToken tokenId)
  let row ← Call.okOr row (.notFound "系统访问 Token 不存在")
  pure (systemTokenFromRow row)

def createToken (S : Secrets) (draw : Draw) (userId : Int) (input : CreateApiTokenInput) :
    Task Outcome := do
  let name ← Call.ofExcept (validateName input.name)
  let scopes ← Call.ofExcept (normalizeScopes input.scopes)
  let projectScope ← Call.ofExcept (normalizeProjectScope input.projectScope)
  let expiresAt ← Call.ofExcept (normalizeExpiresAt input.expiresAt)
  let rawToken := generateToken tokenHead draw
  let tokenHash := hashToken S rawToken
  let tokenCiphertext ← Call.ofExcept (Crypto.encryptSecret S.prims draw.nonce S.masterKey rawToken
    (tokenSecretAad tokenHash))
  let activeTokenCount ← query (.activeTokenCount userId)
  Call.rejectIf (activeTokenCount ≥ maxActiveTokensPerUser)
    (.badRequest "每个用户最多可同时保留 100 个访问 Token，请先删除不再使用的 Token")
  let tokenId ← query (.insertToken
    { id := 0, userId, name, tokenHash, tokenSuffix := suffixOf rawToken, tokenCiphertext, scopes,
      projectScope, expiresAt, revokedAt := "", lastUsedAt := "", createdAt := "", updatedAt := "" })
  let token ← getTokenForUser userId tokenId
  pure (.created token rawToken)

def revokeToken (userId tokenId : Int) : Task Outcome := do
  let rows ← query (.revokeToken userId tokenId)
  Call.rejectIf (rows = 0) (.notFound "访问 Token 不存在")
  let token ← getTokenForUser userId tokenId
  pure (.token token)

def deleteToken (userId tokenId : Int) : Task Outcome := do
  let token ← getTokenForUser userId tokenId
  query (.deleteToken userId tokenId)
  pure (.token token)

def createSystemToken (S : Secrets) (draw : Draw) (actorUserId : Int)
    (input : CreateSystemApiTokenInput) : Task Outcome := do
  let name ← Call.ofExcept (validateSystemName input.name)
  let scopes ← Call.ofExcept (normalizeSystemScopes input.scopes)
  let activeTokenCount ← query .systemTokenCount
  Call.rejectIf (activeTokenCount ≥ maxActiveSystemTokens)
    (.badRequest "系统访问 Token 最多保留 100 个，请先删除不再使用的 Token")
  let rawToken := generateToken systemTokenHead draw
  let tokenHash := hashToken S rawToken
  let tokenCiphertext ← Call.ofExcept (Crypto.encryptSecret S.prims draw.nonce S.masterKey rawToken
    (systemTokenSecretAad tokenHash))
  let tokenId ← query (.insertSystemToken
    { id := 0, name, tokenHash, tokenSuffix := suffixOf rawToken, tokenCiphertext, scopes,
      createdByUserId := actorUserId, updatedByUserId := actorUserId, lastUsedAt := "",
      createdAt := "", updatedAt := "" })
  let token ← getSystemToken tokenId
  pure (.systemCreated token rawToken)

def deleteSystemToken (tokenId : Int) : Task Outcome := do
  let token ← getSystemToken tokenId
  query (.deleteSystemToken tokenId)
  pure (.systemToken token)

inductive Request where
  | create (draw : Draw) (userId : Int) (input : CreateApiTokenInput)
  | revoke (userId tokenId : Int)
  | delete (userId tokenId : Int)
  | createSystem (draw : Draw) (actorUserId : Int) (input : CreateSystemApiTokenInput)
  | deleteSystem (tokenId : Int)

def start (S : Secrets) : Request → Task Outcome
  | .create draw userId input => createToken S draw userId input
  | .revoke userId tokenId => revokeToken userId tokenId
  | .delete userId tokenId => deleteToken userId tokenId
  | .createSystem draw actorUserId input => createSystemToken S draw actorUserId input
  | .deleteSystem tokenId => deleteSystemToken tokenId

abbrev Server := Serving Statement Statement.Answer AppError Outcome Db

end Tokens
end Yuance
