import Yuance.Auth.CredentialStore

/-!
# Yuance.Auth.PendingAuthorization

The pending-authorization file of `createPendingAuthorizationStore` in
`desktop/src/auth/credential-coordinator.mjs`: `load`, `save`, `remove`, `recoverSecretFile` and
`replaceSecretFile`, call by call. `new URL` is a parameter that gives the origin and the path.
-/

namespace Yuance
namespace Auth
namespace PendingAuthorization

open Lib

/-- The arguments of `createPendingAuthorizationStore`. -/
structure Store where
  base : String
  platform : Platform
  profile : Value
  profile_isObject : profile.val.isObject = true
  /-- `profile.origin`. -/
  origin : String
  /-- The origin and the path of `new URL(text)`, unless it throws. -/
  parseUrl : String → Option (String × String)

variable (store : Store)

def filePath : String := store.base
def previousPath : String := store.base ++ ".previous"
def removalMarker : String := store.base ++ ".delete"
def temporaryPath (nonce : String) : String := store.base ++ "." ++ nonce ++ ".tmp"

def isPhase : Option Json → Bool
  | some (.str s) => s == "prepared" || s == "started"
  | _ => false

def isStarted : Option Json → Bool
  | some (.str s) => s == "started"
  | _ => false

def isFiniteNumber : Option Json → Bool
  | some (.num _) => true
  | _ => false

/-- `new URL(value.verificationUrl)` has the origin and the path of the device authorization. -/
def verificationUrlIsValid : Option Json → Bool
  | some (.str url) =>
    match store.parseUrl url with
    | some (origin, pathname) => origin == store.origin && pathname == "/web/device-authorization"
    | none => false
  | _ => false

/-- `validatePendingAuthorization` does not throw. -/
def validatePendingAuthorization (value : Json) : Bool :=
  value.isObject && isPhase (value.get? "phase")
    && ["codeVerifier", "codeChallenge", "exchangeTransactionId", "installationId", "deviceName",
        "platform", "clientVersion"].all
        (fun key => CredentialStore.isNonEmptyString (value.get? key))
    && (match value.get? "exchangeTransactionId" with
        | some id => isUuid id.coerce
        | none => false)
    && (!isStarted (value.get? "phase") ||
        (["deviceCode", "userCode", "verificationUrl"].all
            (fun key => CredentialStore.isNonEmptyString (value.get? key))
          && verificationUrlIsValid store (value.get? "verificationUrl")
          && CredentialStore.isIntegerFrom 1 (value.get? "intervalSeconds")
          && isFiniteNumber (value.get? "expiresAt")))

def expectedProfile : String := store.profile.val.canonicalJson

inductive LoadResult where
  | locked (reason : String)
  | empty
  | available (authorization : Json)

inductive SaveResult where
  | locked (reason : String)
  | saved
  deriving DecidableEq, Repr

inductive RemoveResult where
  | locked (reason : String)
  | removed
  deriving DecidableEq, Repr

/-- What `load` returns for the text of the file. -/
def readEnvelope (text : String) : LoadResult :=
  match Json.parse text with
  | none => .locked "read_failed"
  | some envelope =>
    match envelope.get? "version", envelope.get? "profile", envelope.get? "authorization" with
    | some (.num 2), some (.obj fields), some authorization =>
      if (Json.obj fields).canonicalJson != expectedProfile store then .locked "profile_mismatch"
      else if validatePendingAuthorization store authorization then .available authorization
      else .locked "invalid_payload"
    | _, _, _ => .locked "corrupt_envelope"

def envelope (authorization : Json) : Json :=
  .obj [("version", .num 2), ("profile", (Json.parse (expectedProfile store)).getD .null),
    ("authorization", authorization)]

def contents (authorization : Json) : String := (envelope store authorization).stringify ++ "\n"

section Files

open Prog

variable {σ : Type}

def syncDirectory : Prog σ Unit :=
  guarded (!store.platform.isWindows) do
    Fs.quiet
    lastly Fs.quiet Fs.quiet

def prepareSecretDirectory : Prog σ Unit :=
  if store.platform.isWindows then Fs.quiet
  else do
    Fs.quiet
    Fs.quiet

/-- Both files, then the marker. -/
def finishRemoval : Prog σ Unit := do
  Fs.unlinkIfExists (filePath store)
  Fs.unlinkIfExists (previousPath store)
  syncDirectory store
  Fs.unlinkIfExists (removalMarker store)
  syncDirectory store

def settleBackup (hasFile : Bool) : Prog σ Unit :=
  if hasFile then Fs.unlink (previousPath store)
  else Fs.rename (previousPath store) (filePath store)

def recoverBackup : Prog σ Unit := do
  let hasBackup ← Fs.pathExists (previousPath store)
  guarded hasBackup do
    let hasFile ← Fs.pathExists (filePath store)
    settleBackup store hasFile
    syncDirectory store

def recoverSecretFile : Prog σ Unit := do
  let removal ← Fs.pathExists (removalMarker store)
  if removal then finishRemoval store else recoverBackup store

def writeSecretRemovalMarker : Prog σ Unit := do
  Fs.quiet
  Fs.openTruncate (removalMarker store) 0o600
  lastly
    (do
      Fs.writeFile (removalMarker store) "delete\n"
      guarded (!store.platform.isWindows) (Fs.fchmod (removalMarker store) 0o600)
      Fs.quiet)
    Fs.quiet
  syncDirectory store

/-- The temporary file, opened and written. -/
def writeTemporary (nonce contents : String) : Prog Bool Unit := do
  Fs.openExclusive (temporaryPath store nonce) 0o600
  lastly
    (do
      Fs.writeFile (temporaryPath store nonce) contents
      guarded (!store.platform.isWindows) (Fs.fchmod (temporaryPath store nonce) 0o600)
      Fs.quiet)
    Fs.quiet

/-- The file moved to the backup; the variable is `hasBackup`. -/
def moveToBackup : Prog Bool Unit :=
  catching
    (do
      Fs.rename (filePath store) (previousPath store)
      assign fun _ => true
      syncDirectory store)
    fun code => if code = .enoent then Prog.pure () else Prog.throw code

def dropBackup : Prog Bool Unit := do
  let hasBackup ← vars
  guarded hasBackup do
    Fs.unlink (previousPath store)
    syncDirectory store

/-- The body of the second `try` block. -/
def replaceBody (nonce : String) : Prog Bool Unit := do
  moveToBackup store
  Fs.rename (temporaryPath store nonce) (filePath store)
  guarded (!store.platform.isWindows) (Fs.chmod (filePath store) 0o600)
  syncDirectory store
  dropBackup store

/-- The body of its `catch` block. -/
def undo : Prog Bool Unit := do
  let hasBackup ← vars
  guarded hasBackup do
    Fs.ignore (Fs.unlink (filePath store))
    Fs.ignore (Fs.rename (previousPath store) (filePath store))

def replaceSecretFile (nonce contents : String) : Prog σ Unit :=
  withLocals false do
    Fs.quiet
    writeTemporary store nonce contents
    lastly
      (catching (replaceBody store nonce) fun code => do
        undo store
        Prog.throw code)
      (Fs.ignore (Fs.unlink (temporaryPath store nonce)))

/-- `platform !== "win32" && ((await fs.stat(filePath)).mode & 0o077) !== 0`. -/
def insecurePermissions : Prog σ Bool :=
  if store.platform.isWindows then Prog.pure false
  else do
    let file ← Fs.stat (filePath store)
    Prog.pure (file.mode &&& 0o077 != 0)

def readSecretFile : Prog σ LoadResult :=
  catching
    (do
      let insecure ← insecurePermissions store
      if insecure then Prog.pure (.locked "insecure_permissions")
      else do
        let text ← Fs.readFile (filePath store)
        Prog.pure (readEnvelope store text))
    fun code => Prog.pure (if code = .enoent then .empty else .locked "read_failed")

def recover : Prog σ Unit := do
  prepareSecretDirectory store
  recoverSecretFile store

def load : Prog σ LoadResult := do
  let recovered ← catching (recover store >>= fun _ => Prog.pure true) fun _ => Prog.pure false
  if recovered then readSecretFile store else Prog.pure (.locked "recovery_failed")

def save (nonce : String) (authorization : Value) : Prog σ SaveResult :=
  catching
    (do
      recover store
      if validatePendingAuthorization store authorization.val then do
        replaceSecretFile store nonce (contents store authorization.val)
        Prog.pure .saved
      else Prog.throw .other)
    fun _ => Prog.pure (.locked "write_failed")

def remove : Prog σ RemoveResult :=
  catching
    (do
      prepareSecretDirectory store
      writeSecretRemovalMarker store
      finishRemoval store
      Prog.pure .removed)
    fun code => Prog.pure (if code = .enoent then .removed else .locked "remove_failed")

end Files

end PendingAuthorization
end Auth
end Yuance
