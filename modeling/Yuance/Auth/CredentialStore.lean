import Yuance.Lib.Files
import Yuance.Lib.Json
import Yuance.Lib.Js
import Yuance.Lib.Text

/-!
# Yuance.Auth.CredentialStore

The credential file of `desktop/src/auth/credential-store.mjs`: `load`, `save`, `remove` and
`atomicReplace`, call by call. The files are those of the directory of `filePath`, by base name; calls
on the directory itself have no effect on them. `Date.parse` is a parameter of which only finiteness is
used; the bytes drawn for the temporary name are an argument.
-/

namespace Yuance
namespace Auth

open Lib

inductive Platform where
  | darwin | win32 | linux | other
  deriving DecidableEq, Repr

def Platform.isWindows : Platform → Bool
  | .win32 => true
  | _ => false

/-- A JavaScript value that JSON can write: its objects have distinct keys. -/
abbrev Value := { value : Json // value.Distinct }

/-- A profile to evaluate with. -/
def sampleProfile : Value :=
  ⟨.obj [("key", .str "profile")], .obj (by simp) (by simp; exact .str _)⟩

theorem sampleProfile_isObject : sampleProfile.val.isObject = true := rfl

namespace CredentialStore

def credentialEnvelopeVersion : Int := 2

def envelopeKeys : List String := ["credential", "profileIdentity", "version"]

def credentialKeys : List String :=
  ["accessExpiresAt", "authorizationVersion", "deviceId", "familyId", "generation",
   "lastConfirmedServerGeneration", "pendingRotation", "refreshAbsoluteExpiresAt",
   "refreshExpiresAt", "refreshToken", "userId"]

def requiredCredentialKeys : List String :=
  ["deviceId", "familyId", "generation", "lastConfirmedServerGeneration", "pendingRotation",
   "refreshToken", "userId"]

/-- The arguments of `createCredentialStore`. -/
structure Store where
  base : String
  platform : Platform
  profileIdentity : Value
  profile_isObject : profileIdentity.val.isObject = true
  /-- `Number.isFinite(Date.parse(text))`. -/
  dateParses : String → Bool

variable (store : Store)

def isNonEmptyString : Option Json → Bool
  | some (.str s) => s ≠ ""
  | _ => false

def isIntegerFrom (least : Int) : Option Json → Bool
  | some (.num n) => decide (isSafeInteger n) && decide (least ≤ n)
  | _ => false

/-- `/^yuance_drt_[A-Za-z0-9_-]+$/`. -/
def isRefreshToken (s : String) : Bool :=
  match stripHead "yuance_drt_" s with
  | none => false
  | some rest =>
    rest ≠ "" && rest.toList.all fun c => c.isAlphanum || c == '_' || c == '-'

def isTimestamp : Option Json → Bool
  | some (.str s) => store.dateParses s
  | _ => false

/-- `validatePendingRotation` does not throw. -/
def validatePendingRotation : Option Json → Bool
  | some .null => true
  | some value =>
    value.isObject && value.joinedKeys == "sourceGeneration,transactionId"
      && isIntegerFrom 0 (value.get? "sourceGeneration")
      && (match value.get? "transactionId" with
          | some id => isUuid id.coerce
          | none => false)
  | none => false

/-- `assertCredential` does not throw. -/
def assertCredential (value : Json) : Bool :=
  value.isObject
    && value.keys.all credentialKeys.contains
    && requiredCredentialKeys.all value.keys.contains
    && ["userId", "deviceId", "familyId"].all (fun key => isNonEmptyString (value.get? key))
    && isIntegerFrom 0 (value.get? "generation")
    && isIntegerFrom 0 (value.get? "lastConfirmedServerGeneration")
    && (match value.get? "refreshToken" with
        | some token => isRefreshToken token.coerce
        | none => false)
    && (match value.get? "authorizationVersion" with
        | some version => isIntegerFrom 1 (some version)
        | none => true)
    && ["accessExpiresAt", "refreshExpiresAt", "refreshAbsoluteExpiresAt"].all (fun key =>
        match value.get? key with
        | some time => isTimestamp store (some time)
        | none => true)
    && validatePendingRotation (value.get? "pendingRotation")

/-- `validateEnvelope` does not throw. -/
def validateEnvelope (value : Json) : Bool :=
  value.isObject && value.joinedKeys == String.intercalate "," envelopeKeys
    && (match value.get? "version" with
        | some (.num n) => n == credentialEnvelopeVersion
        | _ => false)
    && (match value.get? "profileIdentity" with
        | some profile => profile.isObject
        | none => false)
    && (match value.get? "credential" with
        | some credential => assertCredential store credential
        | none => false)

def expectedProfile : String := store.profileIdentity.val.canonicalJson

def storedProfile : Json := ((Json.parse (expectedProfile store)).getD .null)

def targetPath : String := store.base
def previousPath : String := store.base ++ ".previous"
def markerPath : String := store.base ++ ".delete"
def temporaryPath (nonce : String) : String := "." ++ store.base ++ "." ++ nonce ++ ".tmp"

def backupPath (nonce : String) : String :=
  if store.platform.isWindows then previousPath store
  else "." ++ store.base ++ "." ++ nonce ++ ".bak"

inductive LoadResult where
  | unavailable (reason : String)
  | locked (reason : String)
  | empty
  | available (credential : Json)

inductive SaveResult where
  | unavailable (reason : String)
  | locked (reason : String)
  | saved
  deriving DecidableEq, Repr

inductive RemoveResult where
  | locked (reason : String)
  | removed
  deriving DecidableEq, Repr

def availability : Option String :=
  match store.platform with
  | .other => some "unsupported_platform"
  | _ => none

section Files

open Prog

variable {σ : Type}

def syncDirectory : Prog σ Unit :=
  guarded (!store.platform.isWindows) do
    Fs.quiet
    lastly Fs.quiet Fs.quiet

def prepareCredentialDirectory : Prog σ Unit :=
  if store.platform.isWindows then Fs.quiet
  else do
    Fs.quiet
    Fs.quiet

def recoverWindowsReplace : Prog σ Unit := do
  let hasBackup ← Fs.pathExists (previousPath store)
  guarded hasBackup do
    let hasTarget ← Fs.pathExists (targetPath store)
    if hasTarget then Fs.unlink (previousPath store)
    else Fs.rename (previousPath store) (targetPath store)

def writeRemovalMarker : Prog σ Unit := do
  Fs.quiet
  Fs.openTruncate (markerPath store) 0o600
  lastly
    (do
      Fs.writeFile (markerPath store) "delete"
      guarded (!store.platform.isWindows) (Fs.fchmod (markerPath store) 0o600)
      Fs.quiet)
    Fs.quiet
  syncDirectory store

def finishPendingRemoval : Prog σ Unit := do
  let pending ← Fs.pathExists (markerPath store)
  guarded pending do
    guarded store.platform.isWindows (Fs.unlinkIfExists (previousPath store))
    Fs.unlinkIfExists (targetPath store)
    syncDirectory store
    Fs.unlink (markerPath store)
    syncDirectory store

/-- The variables of `atomicReplace`. -/
structure Replace where
  temporaryHandle : Bool
  backupCreated : Bool
  replacementCommitted : Bool
  preserveBackup : Bool
  deriving DecidableEq, Repr

def Replace.start : Replace :=
  { temporaryHandle := false, backupCreated := false, replacementCommitted := false,
    preserveBackup := false }

def writeTemporary (nonce contents : String) : Prog Replace Unit := do
  Fs.openExclusive (temporaryPath store nonce) 0o600
  assign fun v => { v with temporaryHandle := true }
  Fs.writeFile (temporaryPath store nonce) contents
  guarded (!store.platform.isWindows) (Fs.fchmod (temporaryPath store nonce) 0o600)
  Fs.quiet
  Fs.quiet
  assign fun v => { v with temporaryHandle := false }

def ignoreMissing (p : Prog Replace Unit) : Prog Replace Unit :=
  catching p fun code => if code = .enoent then Prog.pure () else Prog.throw code

def moveToBackup (nonce : String) : Prog Replace Unit :=
  ignoreMissing do
    Fs.rename (targetPath store) (backupPath store nonce)
    assign fun v => { v with backupCreated := true }
    syncDirectory store

def copyToBackup (nonce : String) : Prog Replace Unit :=
  ignoreMissing do
    Fs.copyFile (targetPath store) (backupPath store nonce)
    assign fun v => { v with backupCreated := true }
    Fs.openRead (backupPath store nonce)
    lastly Fs.quiet Fs.quiet
    Fs.chmod (backupPath store nonce) 0o600
    syncDirectory store

def commit (nonce : String) : Prog Replace Unit := do
  Fs.rename (temporaryPath store nonce) (targetPath store)
  assign fun v => { v with replacementCommitted := true }
  guarded (!store.platform.isWindows) (Fs.chmod (targetPath store) 0o600)
  syncDirectory store
  let v ← vars
  guarded v.backupCreated do
    Fs.unlink (backupPath store nonce)
    assign fun v => { v with backupCreated := false }
    syncDirectory store

/-- The body of the `try` block. -/
def replaceBody (nonce contents : String) : Prog Replace Unit := do
  writeTemporary store nonce contents
  if store.platform.isWindows then moveToBackup store nonce else copyToBackup store nonce
  commit store nonce

def restore (nonce : String) : Prog Replace Unit := do
  Fs.rename (backupPath store nonce) (targetPath store)
  assign fun v => { v with backupCreated := false }
  syncDirectory store

def keepBackup (p : Prog Replace Unit) : Prog Replace Unit :=
  catching p fun _ => assign fun v => { v with preserveBackup := true }

/-- The body of the `catch` block. -/
def undo (nonce : String) : Prog Replace Unit := do
  let v ← vars
  if v.replacementCommitted && v.backupCreated then
    keepBackup do
      guarded store.platform.isWindows (Fs.ignore (Fs.unlink (targetPath store)))
      restore store nonce
  else
    guarded (store.platform.isWindows && v.backupCreated) (keepBackup (restore store nonce))

/-- The body of the `finally` block. -/
def cleanUp (nonce : String) : Prog Replace Unit := do
  let v ← vars
  guarded v.temporaryHandle (Fs.ignore Fs.quiet)
  Fs.ignore (Fs.unlink (temporaryPath store nonce))
  let v ← vars
  guarded (v.backupCreated && !v.replacementCommitted && !v.preserveBackup)
    (Fs.ignore (Fs.unlink (backupPath store nonce)))

def atomicReplace (nonce contents : String) : Prog σ Unit :=
  withLocals Replace.start do
    Fs.quiet
    lastly
      (catching (replaceBody store nonce contents) fun code => do
        undo store nonce
        Prog.throw code)
      (cleanUp store nonce)

/-- What `load` returns for the text of the file. -/
def readEnvelope (serialized : String) : LoadResult :=
  match Json.parse serialized with
  | none => .locked "corrupt_envelope"
  | some envelope =>
    if validateEnvelope store envelope then
      match envelope.get? "profileIdentity", envelope.get? "credential" with
      | some profile, some credential =>
        if profile.canonicalJson == expectedProfile store then .available credential
        else .locked "profile_mismatch"
      | _, _ => .locked "invalid_payload"
    else .locked "corrupt_envelope"

/-- `await finishPendingRemoval` and, on Windows, `await recoverWindowsReplace`. -/
def recover : Prog σ Unit := do
  prepareCredentialDirectory store
  finishPendingRemoval store
  guarded store.platform.isWindows (recoverWindowsReplace store)

/-- `platform !== "win32" && ((await fs.stat(filePath)).mode & 0o077) !== 0`. -/
def insecurePermissions : Prog σ Bool :=
  if store.platform.isWindows then Prog.pure false
  else do
    let file ← Fs.stat (targetPath store)
    Prog.pure (file.mode &&& 0o077 != 0)

def readTarget : Prog σ LoadResult :=
  catching
    (do
      let insecure ← insecurePermissions store
      if insecure then Prog.pure (.locked "insecure_permissions")
      else do
        let serialized ← Fs.readFile (targetPath store)
        Prog.pure (readEnvelope store serialized))
    fun code => Prog.pure (if code = .enoent then .empty else .locked "read_failed")

def load : Prog σ LoadResult :=
  match availability store with
  | some reason => Prog.pure (.unavailable reason)
  | none => do
    let recovered ← catching (recover store >>= fun _ => Prog.pure true) fun _ => Prog.pure false
    if recovered then readTarget store else Prog.pure (.locked "recovery_failed")

/-- The envelope that `save` writes. -/
def envelope (credential : Json) : Json :=
  .obj [("version", .num credentialEnvelopeVersion), ("profileIdentity", storedProfile store),
    ("credential", credential)]

def contents (credential : Json) : String := (envelope store credential).stringify ++ "\n"

def save (nonce : String) (credential : Value) : Prog σ SaveResult :=
  match availability store with
  | some reason => Prog.pure (.unavailable reason)
  | none => do
    let recovered ← catching (recover store >>= fun _ => Prog.pure true) fun _ => Prog.pure false
    if !recovered then Prog.pure (.locked "recovery_failed")
    else if !assertCredential store credential.val then Prog.pure (.locked "invalid_credential")
    else
      catching
        (atomicReplace store nonce (contents store credential.val) >>= fun _ => Prog.pure .saved)
        fun _ => Prog.pure (.locked "write_failed")

def remove : Prog σ RemoveResult :=
  catching
    (do
      prepareCredentialDirectory store
      writeRemovalMarker store
      finishPendingRemoval store
      Prog.pure .removed)
    fun _ => Prog.pure (.locked "remove_failed")

end Files

end CredentialStore
end Auth
end Yuance
