import Yuance.FileCrypto.Desktop

/-!
# Yuance.Files.Download

`execute` of `desktop/src/files/download-executor.mjs` over `prepare`, `commit` and `cleanup` of
`desktop/src/files/download-target.mjs`: a download goes into a temporary file beside the target,
which takes the target's place once it is whole. Any call may reject, a write may be short, and the
transfer may be aborted. No other program touches the directory, so a path shows the same file as
the handle opened on it. An error is the code that begins with `file_`, if it has one.

* `Env`: what the dialog, the grant, the network and the calls do.
* `execute`: the download, from the directory to the directory behind it.
* `Prepared`, `Delivered`: the temporary file is made; the bytes arrive and take the target's place.
* `execute_eq`: what happens in each case.
* `all_or_nothing_iff`: when a download is all or nothing.
-/

namespace Yuance
namespace Files
namespace Download

open Lib FileCrypto

/-- What stands under a name. -/
inductive Entry where
  | file (content : Bytes)
  | directory
  | link
  | special
  deriving DecidableEq

/-- The file system, by path. -/
abbrev Disk := String → Option Entry

/-- The `code` of an error that begins with `file_`. -/
abbrev Failure := Option String

/-- The calls that may reject. -/
inductive Place where
  | showSaveDialog
  | lstatDirectory
  | openDirectory
  | lstatTarget
  | openTarget
  | statTarget
  | randomBytes
  | openTemporary
  | fetch
  | statTemporary
  | sync
  | statDirectory
  | lstatDirectoryAgain
  | statTargetAgain
  | lstatTargetAgain
  | rename
  | lstatFinal
  | onCommittedTarget
  | unlink
  deriving DecidableEq, Repr

/-- One `handle.write`: how many bytes it says it wrote, or it rejects. -/
inductive WriteFate where
  | wrote (n : Nat)
  | rejects
  deriving DecidableEq, Repr

/-- A turn of the loop over the body: the signal is aborted, the read rejects, or bytes come and are
written in as many calls as it takes. -/
inductive Event where
  | aborted
  | broken (aborted : Bool)
  | piece (bytes : Bytes) (writes : List WriteFate)
  deriving DecidableEq

structure Response where
  redirected : Bool
  status : Nat
  url : String
  contentType : Option String
  contentLength : Option String
  body : Option (List Event)

structure Encryption where
  key : Key
  fileObjectId : Int
  plaintextByteSize : Nat
  plaintextSha256 : String
  encryptedChecksumSha256 : String

structure Contract where
  purpose : String
  method : String
  url : String
  expectedBytes : Nat
  contentType : String
  sha256 : String
  expiresAt : Int
  encryption : Option Encryption

inductive Dialog where
  | cancelled
  | invalidPath
  | path
  deriving DecidableEq, Repr

/-- What the dialog, the grant, the network and the calls do. -/
structure Env where
  dialog : Dialog
  targetPath : String
  /-- `dirname(targetPath)`. -/
  directory : String
  /-- `join(directory, ".yuance-download-….tmp")`. -/
  temporaryPath : String
  fails : Place → Bool
  /-- As many operations as the registry admits are active. -/
  registryFull : Bool
  /-- `grantVault.consume`. -/
  contract : Except Failure Contract
  now : Int
  abortedAtStart : Bool
  /-- Whether the signal is aborted by the time an error without a code is caught. -/
  abortedLater : Bool
  response : Response
  /-- The writes of a decrypted file. -/
  plaintextWrites : List WriteFate
  hasCallback : Bool

inductive Outcome where
  | completed (byteSize : Nat)
  | cancelled
  | rejected (failure : Failure)
  deriving DecidableEq, Repr

section Run

variable (P : Prims) (env : Env) (disk : Disk)

def call (place : Place) : Except Failure Unit := rejectIf (env.fails place = true) none

/-! ## The target -/

/-- The target as it is found: a file, or nothing yet. -/
def lookUpTarget : Except Failure (Option Entry) := do
  call env .lstatTarget
  match disk env.targetPath with
  | none => pure none
  | some (.file content) =>
    call env .openTarget
    call env .statTarget
    pure (some (.file content))
  | some _ => .error (some "file_download_target_invalid")

def lookUpDirectory : Except Failure Unit := do
  call env .lstatDirectory
  match disk env.directory with
  | none => .error none
  | some .directory => pure ()
  | some _ => .error (some "file_download_target_invalid")

/-- Errors without a code of their own. -/
def asTargetError {α : Type} : Except Failure α → Except Failure α
  | .error none => .error (some "file_download_target_invalid")
  | r => r

/-- `prepare`, up to the temporary file. -/
def prepare : Except Failure (Option Entry) := do
  lookUpDirectory env disk
  call env .openDirectory
  asTargetError do
    let seen ← lookUpTarget env disk
    call env .randomBytes
    call env .openTemporary
    rejectIf ((disk env.temporaryPath).isSome = true) none
    pure seen

/-! ## The transfer -/

/-- `writeAll`: `fates` are those of its calls, behind which a call writes what is left. The bytes
behind `written` are in the file. -/
def writeAll : List WriteFate → Bytes → Bytes → Bytes × Except Failure Unit
  | _, [], written => (written, .ok ())
  | [], b :: bytes, written => (written ++ b :: bytes, .ok ())
  | .rejects :: _, _ :: _, written => (written, .error none)
  | .wrote n :: fates, b :: bytes, written =>
    if n = 0 then (written, .error (some "file_download_write_failed"))
    else writeAll fates ((b :: bytes).drop n) (written ++ (b :: bytes).take n)

def brokenRead (aborted : Bool) : Failure :=
  some (if aborted then "file_transfer_aborted" else "file_transfer_network_error")

/-- The loop of `collectCiphertext`. -/
def collect (limit : Nat) : List Event → Bytes → Except Failure Bytes
  | [], seen => .ok seen
  | .aborted :: _, _ => .error (some "file_transfer_aborted")
  | .broken aborted :: _, _ => .error (brokenRead aborted)
  | .piece bytes _ :: rest, seen =>
    if (seen ++ bytes).length > limit then .error (some "file_transfer_size_mismatch")
    else collect limit rest (seen ++ bytes)

/-- The loop of `writeResponse`; `seen` is what the digest has taken in. -/
def copy (limit : Nat) : List Event → Bytes → Bytes → Bytes × Except Failure Bytes
  | [], seen, written => (written, .ok seen)
  | .aborted :: _, _, written => (written, .error (some "file_transfer_aborted"))
  | .broken aborted :: _, _, written => (written, .error (brokenRead aborted))
  | .piece bytes writes :: rest, seen, written =>
    if (seen ++ bytes).length > limit then (written, .error (some "file_transfer_size_mismatch"))
    else
      match writeAll writes bytes written with
      | (written, .error failure) => (written, .error failure)
      | (written, .ok ()) => copy limit rest (seen ++ bytes) written

def sha256Of (bytes : Bytes) : String := hexEncode (P.sha.hash bytes)

def decrypted (e : Encryption) (ciphertext : Bytes) : Except Failure Bytes :=
  match Desktop.decryptFile P e.key e.fileObjectId ciphertext with
  | .ok plaintext => .ok plaintext
  | .error (.encryption _) => .error (some "file_encryption_failed")
  | .error _ => .error none

/-- What is to be written of an encrypted body. -/
def openCiphertext (contract : Contract) (e : Encryption) (events : List Event) :
    Except Failure Bytes := do
  let ciphertext ← collect contract.expectedBytes events []
  rejectIf (ciphertext.length ≠ contract.expectedBytes ∨
    sha256Of P ciphertext ≠ e.encryptedChecksumSha256) (some "file_transfer_size_mismatch")
  let plaintext ← decrypted P e ciphertext
  rejectIf (plaintext.length ≠ e.plaintextByteSize ∨ sha256Of P plaintext ≠ contract.sha256 ∨
    sha256Of P plaintext ≠ e.plaintextSha256) (some "file_transfer_size_mismatch")
  pure plaintext

/-- `writeResponse`: what is in the temporary file, and how many bytes that should be. -/
def writeResponse (contract : Contract) (events : List Event) : Bytes × Except Failure Nat :=
  match contract.encryption with
  | some e =>
    match openCiphertext P contract e events with
    | .error failure => ([], .error failure)
    | .ok plaintext =>
      match writeAll env.plaintextWrites plaintext [] with
      | (written, .error failure) => (written, .error failure)
      | (written, .ok ()) => (written, .ok plaintext.length)
  | none =>
    match copy contract.expectedBytes events [] [] with
    | (written, .error failure) => (written, .error failure)
    | (written, .ok seen) =>
      if seen.length ≠ contract.expectedBytes ∨ sha256Of P seen ≠ contract.sha256 then
        (written, .error (some "file_transfer_size_mismatch"))
      else (written, .ok seen.length)

def validateResponse (response : Response) (contract : Contract) : Except Failure Unit := do
  rejectIf (response.redirected = true ∨ response.status ≠ 200 ∨
    (response.url ≠ "" ∧ response.url ≠ contract.url)) (some "file_transfer_response_invalid")
  rejectIf ((response.contentType.getD "").toLower ≠ contract.contentType.toLower)
    (some "file_transfer_response_invalid")
  rejectIf (response.contentLength.isSome ∧ response.contentLength ≠
    some (toString contract.expectedBytes)) (some "file_transfer_size_mismatch")

/-- Up to the body of the response. -/
def request : Except Failure (Contract × List Event) := do
  let contract ← env.contract
  rejectIf (contract.purpose ≠ "download" ∨ contract.method ≠ "GET")
    (some "file_transfer_contract_mismatch")
  rejectIf (contract.expiresAt - env.now ≤ 0) (some "file_transfer_grant_invalid")
  rejectIf (env.abortedAtStart = true) (some "file_transfer_aborted")
  rejectIf (env.fails .fetch = true) (brokenRead env.abortedLater)
  validateResponse env.response contract
  let events ← okOr env.response.body (some "file_transfer_response_invalid")
  pure (contract, events)

def transfer : Bytes × Except Failure Nat :=
  match request env with
  | .error failure => ([], .error failure)
  | .ok (contract, events) => writeResponse P env contract events

/-! ## The end -/

/-- `verifyIdentity` of the target, or `assertMissing`. -/
def verifyTarget (seen : Option Entry) : Except Failure Unit := do
  rejectIf (seen.isSome = true ∧ env.fails .statTargetAgain = true) none
  call env .lstatTargetAgain
  rejectIf (disk env.targetPath ≠ seen) (some "file_download_target_changed")

/-- `commit` up to the renaming, which is its last call. -/
def commitChecks (seen : Option Entry) (content : Bytes) (expectedBytes : Nat) :
    Except Failure Unit := do
  call env .statTemporary
  rejectIf (content.length ≠ expectedBytes) (some "file_download_commit_failed")
  call env .sync
  call env .statDirectory
  call env .lstatDirectoryAgain
  rejectIf (disk env.directory ≠ some .directory) (some "file_download_target_changed")
  verifyTarget env disk seen
  call env .rename

def fileSize : Option Entry → Option Nat
  | some (.file content) => some content.length
  | _ => none

/-- The rest of `commit` and `onCommittedTarget`. -/
def afterRename (expectedBytes : Nat) : Except Failure Unit := do
  call env .lstatFinal
  rejectIf (fileSize (disk env.targetPath) ≠ some expectedBytes)
    (some "file_download_commit_failed")
  rejectIf (env.hasCallback = true ∧ env.fails .onCommittedTarget = true) none

/-- What `catch` makes of an error. -/
def publicFailure (failure : Failure) : Failure :=
  some (failure.getD (if env.abortedLater then "file_transfer_aborted" else "file_transfer_failed"))

/-- `cleanup` of a temporary file that was not committed, and the error behind it. -/
def cleanup (content : Bytes) (failure : Failure) : Disk × Outcome :=
  let disk := Function.update disk env.temporaryPath (some (.file content))
  if env.fails .unlink then (disk, .rejected (some "file_download_cleanup_failed"))
  else (Function.update disk env.temporaryPath none, .rejected (publicFailure env failure))

/-- The download from the call of `registry.begin` on, with the temporary file made. -/
def run (seen : Option Entry) : Disk × Outcome :=
  match transfer P env with
  | (content, .error failure) => cleanup env disk content failure
  | (content, .ok byteSize) =>
    let written := Function.update disk env.temporaryPath (some (.file content))
    match commitChecks env written seen content byteSize with
    | .error failure => cleanup env disk content failure
    | .ok () =>
      let renamed := Function.update (Function.update written env.temporaryPath none) env.targetPath
        (some (.file content))
      match afterRename env renamed byteSize with
      | .error failure => (renamed, .rejected (publicFailure env failure))
      | .ok () => (renamed, .completed byteSize)

def execute : Disk × Outcome :=
  if env.fails .showSaveDialog then (disk, .rejected none)
  else
    match env.dialog with
    | .cancelled => (disk, .cancelled)
    | .invalidPath => (disk, .rejected (some "file_download_target_invalid"))
    | .path =>
      match prepare env disk with
      | .error failure => (disk, .rejected failure)
      | .ok seen =>
        if env.registryFull then
          (Function.update disk env.temporaryPath (some (.file [])),
            .rejected (some "file_transfer_concurrency_limit"))
        else run P env disk seen

/-! ## What a download is to do -/

/-- The digest and the length of the contract, after decryption. -/
structure Matches (contract : Contract) (content : Bytes) : Prop where
  sha256 : sha256Of P content = contract.sha256
  byteSize : content.length = (contract.encryption.map (·.plaintextByteSize)).getD
    contract.expectedBytes

/-- All or nothing: behind a completed download the target holds what the contract says and
everything else stays; behind any other, everything is as before, but for a temporary file that
could not be deleted. -/
def AllOrNothing : Disk × Outcome → Prop
  | (after, .completed byteSize) => ∃ contract content, env.contract = .ok contract ∧
      Matches P contract content ∧ content.length = byteSize ∧
      after = Function.update disk env.targetPath (some (.file content))
  | (after, outcome) => ∀ name, after name = disk name ∨ name = env.temporaryPath ∧
      env.fails .unlink = true ∧ outcome = .rejected (some "file_download_cleanup_failed")

/-! ## When the bytes arrive -/

/-- The temporary file is made. -/
structure Prepared : Prop where
  asked : env.fails .showSaveDialog = false
  chosen : env.dialog = .path
  directory : disk env.directory = some .directory
  calls : ∀ place ∈ [Place.lstatDirectory, .openDirectory, .lstatTarget, .randomBytes,
    .openTemporary], env.fails place = false
  target : disk env.targetPath = none ∨ (∃ content, disk env.targetPath = some (.file content)) ∧
    env.fails .openTarget = false ∧ env.fails .statTarget = false
  free : disk env.temporaryPath = none

/-- The answer to the request is what the contract says. -/
structure Answered (response : Response) (contract : Contract) : Prop where
  direct : response.redirected = false
  status : response.status = 200
  url : response.url = "" ∨ response.url = contract.url
  contentType : (response.contentType.getD "").toLower = contract.contentType.toLower
  contentLength : response.contentLength = none ∨
    response.contentLength = some (toString contract.expectedBytes)

/-- The calls write that many bytes. -/
def Writes : List WriteFate → Nat → Prop
  | _, 0 => True
  | [], _ + 1 => True
  | .rejects :: _, _ + 1 => False
  | .wrote n :: fates, left + 1 => 0 < n ∧ Writes fates (left + 1 - n)

/-- The body arrives in pieces, each written as `written` says. -/
inductive Pieces (written : List WriteFate → Nat → Prop) : List Event → Bytes → Prop where
  | done : Pieces written [] []
  | piece {bytes rest : Bytes} {writes : List WriteFate} {events : List Event} :
      written writes bytes.length → Pieces written events rest →
      Pieces written (.piece bytes writes :: events) (bytes ++ rest)

/-- The body, and what is written of it. -/
def Arrived (contract : Contract) (events : List Event) (content : Bytes) : Prop :=
  match contract.encryption with
  | none => Pieces Writes events content ∧ content.length = contract.expectedBytes ∧
      sha256Of P content = contract.sha256
  | some e => ∃ ciphertext, Pieces (fun _ _ => True) events ciphertext ∧
      ciphertext.length = contract.expectedBytes ∧
      sha256Of P ciphertext = e.encryptedChecksumSha256 ∧
      Desktop.decryptFile P e.key e.fileObjectId ciphertext = .ok content ∧
      content.length = e.plaintextByteSize ∧ sha256Of P content = contract.sha256 ∧
      sha256Of P content = e.plaintextSha256 ∧ Writes env.plaintextWrites content.length

/-- The bytes are in the temporary file. -/
structure Transferred (contract : Contract) (content : Bytes) : Prop where
  granted : env.contract = .ok contract
  purpose : contract.purpose = "download"
  method : contract.method = "GET"
  inTime : env.now < contract.expiresAt
  started : env.abortedAtStart = false
  fetched : env.fails .fetch = false
  answered : Answered env.response contract
  arrived : ∃ events, env.response.body = some events ∧ Arrived P env contract events content

/-- Nothing stands in the way of the renaming. -/
structure Committable : Prop where
  calls : ∀ place ∈ [Place.statTemporary, .sync, .statDirectory, .lstatDirectoryAgain,
    .lstatTargetAgain, .rename], env.fails place = false
  target : disk env.targetPath = none ∨ env.fails .statTargetAgain = false
  apart : env.targetPath ≠ env.temporaryPath

end Run

section Lemmas

variable {P : Prims} {env : Env} {disk : Disk}

theorem call_eq_ok {place : Place} {u : Unit} :
    call env place = .ok u ↔ env.fails place = false := by
  rw [call, rejectIf_eq_ok, Bool.not_eq_true]

theorem asTargetError_eq_ok {α : Type} {r : Except Failure α} {a : α} :
    asTargetError r = .ok a ↔ r = .ok a := by
  unfold asTargetError
  split
  · simp
  · rfl

theorem lookUpTarget_eq_ok {seen : Option Entry} : lookUpTarget env disk = .ok seen ↔
    env.fails .lstatTarget = false ∧ seen = disk env.targetPath ∧
      (disk env.targetPath = none ∨ (∃ content, disk env.targetPath = some (.file content)) ∧
        env.fails .openTarget = false ∧ env.fails .statTarget = false) := by
  unfold lookUpTarget
  simp only [bind_eq_ok, call_eq_ok]
  cases disk env.targetPath with
  | none => simp [pure_ok, @eq_comm _ none]
  | some entry =>
    cases entry with
    | file content =>
      simp only [pure_ok, bind_eq_ok, call_eq_ok, Except.ok.injEq, reduceCtorEq, false_or,
        Option.some.injEq, Entry.file.injEq, exists_const,
        @eq_comm _ (some (Entry.file content))]
      tauto
    | directory => simp
    | link => simp
    | special => simp

theorem lookUpDirectory_eq_ok {u : Unit} : lookUpDirectory env disk = .ok u ↔
    env.fails .lstatDirectory = false ∧ disk env.directory = some .directory := by
  unfold lookUpDirectory
  rcases disk env.directory with _ | ⟨content⟩ | _ | _ | _
  all_goals simp [bind_eq_ok, call_eq_ok, pure_ok]

theorem prepare_eq_ok (hasked : env.fails .showSaveDialog = false) (hchosen : env.dialog = .path)
    {seen : Option Entry} :
    prepare env disk = .ok seen ↔ Prepared env disk ∧ seen = disk env.targetPath := by
  unfold prepare
  simp only [bind_eq_ok, call_eq_ok, lookUpDirectory_eq_ok, asTargetError_eq_ok,
    lookUpTarget_eq_ok, rejectIf_eq_ok, pure_ok, Except.ok.injEq]
  constructor
  · rintro ⟨_, ⟨hlstat, hdirectory⟩, _, hopen, _, ⟨hlook, rfl, htarget⟩, _, hrandom, _, htemporary,
      _, hfree, rfl⟩
    refine ⟨⟨hasked, hchosen, hdirectory, ?_, htarget, by simpa using hfree⟩, rfl⟩
    simp [hlstat, hopen, hlook, hrandom, htemporary]
  · rintro ⟨h, rfl⟩
    have hcalls := h.calls
    simp only [List.forall_mem_cons, List.not_mem_nil, false_imp_iff, implies_true,
      and_true] at hcalls
    obtain ⟨hlstat, hopen, hlook, hrandom, htemporary⟩ := hcalls
    exact ⟨(), ⟨hlstat, h.directory⟩, (), hopen, _, ⟨hlook, rfl, h.target⟩, (), hrandom, (),
      htemporary, (), by simp [h.free], rfl⟩

theorem writeAll_eq_ok {fates : List WriteFate} {bytes written out : Bytes} :
    writeAll fates bytes written = (out, .ok ()) ↔
      Writes fates bytes.length ∧ out = written ++ bytes := by
  induction fates generalizing bytes written with
  | nil =>
    cases bytes with
    | nil => simp [writeAll, Writes, eq_comm]
    | cons b bytes => simp [writeAll, Writes, eq_comm]
  | cons fate fates ih =>
    cases bytes with
    | nil => simp [writeAll, Writes, eq_comm]
    | cons b bytes =>
      cases fate with
      | rejects => simp [writeAll, Writes]
      | wrote n =>
        by_cases hn : n = 0
        · simp [writeAll, Writes, hn]
        · rw [writeAll, if_neg hn, ih, List.append_assoc, List.take_append_drop, List.length_drop]
          simp only [Writes, List.length_cons]
          constructor
          · rintro ⟨h, rfl⟩
            exact ⟨⟨by omega, h⟩, rfl⟩
          · rintro ⟨⟨_, h⟩, rfl⟩
            exact ⟨h, rfl⟩

theorem pieces_cons {written : List WriteFate → Nat → Prop} {bytes all : Bytes}
    {writes : List WriteFate} {events : List Event} :
    Pieces written (.piece bytes writes :: events) all ↔
      ∃ rest, written writes bytes.length ∧ Pieces written events rest ∧ all = bytes ++ rest := by
  constructor
  · intro h
    cases h with
    | piece hbytes hrest => exact ⟨_, hbytes, hrest, rfl⟩
  · rintro ⟨rest, hbytes, hrest, rfl⟩
    exact .piece hbytes hrest

/-- The loop over a body of at most `limit` bytes ends exactly if the pieces arrive. -/
theorem collect_eq_ok {limit : Nat} {events : List Event} {seen out : Bytes}
    (hlimit : out.length ≤ limit) : collect limit events seen = .ok out ↔
      ∃ rest, Pieces (fun _ _ => True) events rest ∧ out = seen ++ rest := by
  induction events generalizing seen with
  | nil =>
    rw [collect, Except.ok.injEq]
    constructor
    · rintro rfl
      exact ⟨[], .done, (List.append_nil _).symm⟩
    · rintro ⟨rest, h, rfl⟩
      cases h
      exact (List.append_nil _).symm
  | cons event events ih =>
    cases event with
    | aborted =>
      constructor
      · intro h
        cases h
      · rintro ⟨_, h, _⟩
        cases h
    | broken aborted =>
      constructor
      · intro h
        cases h
      · rintro ⟨_, h, _⟩
        cases h
    | piece bytes writes =>
      rw [collect]
      split
      · rename_i hlong
        constructor
        · intro h
          cases h
        · rintro ⟨all, h, rfl⟩
          obtain ⟨rest, _, _, rfl⟩ := pieces_cons.mp h
          simp only [List.length_append] at hlong hlimit
          omega
      · rw [ih]
        constructor
        · rintro ⟨rest, h, rfl⟩
          exact ⟨bytes ++ rest, .piece trivial h, List.append_assoc _ _ _⟩
        · rintro ⟨all, h, rfl⟩
          obtain ⟨rest, _, hrest, rfl⟩ := pieces_cons.mp h
          exact ⟨rest, hrest, (List.append_assoc _ _ _).symm⟩

theorem copy_eq_ok {limit : Nat} {events : List Event} {seen written out file : Bytes}
    (hlimit : out.length ≤ limit) : copy limit events seen written = (file, .ok out) ↔
      ∃ rest, Pieces Writes events rest ∧ out = seen ++ rest ∧ file = written ++ rest := by
  induction events generalizing seen written with
  | nil =>
    rw [copy, Prod.mk.injEq, Except.ok.injEq]
    constructor
    · rintro ⟨rfl, rfl⟩
      exact ⟨[], .done, (List.append_nil _).symm, (List.append_nil _).symm⟩
    · rintro ⟨rest, h, rfl, rfl⟩
      cases h
      exact ⟨(List.append_nil _).symm, (List.append_nil _).symm⟩
  | cons event events ih =>
    cases event with
    | aborted =>
      constructor
      · intro h
        cases h
      · rintro ⟨_, h, _⟩
        cases h
    | broken aborted =>
      constructor
      · intro h
        cases h
      · rintro ⟨_, h, _⟩
        cases h
    | piece bytes writes =>
      rw [copy]
      split
      · rename_i hlong
        constructor
        · intro h
          cases h
        · rintro ⟨all, h, rfl, rfl⟩
          obtain ⟨rest, _, _, rfl⟩ := pieces_cons.mp h
          simp only [List.length_append] at hlong hlimit
          omega
      · split
        · rename_i hwrite
          constructor
          · intro h
            cases h
          · rintro ⟨all, h, rfl, rfl⟩
            obtain ⟨rest, hwrites, _, rfl⟩ := pieces_cons.mp h
            rw [writeAll_eq_ok.mpr ⟨hwrites, rfl⟩] at hwrite
            cases hwrite
        · rename_i next hwrite
          obtain ⟨hwrites, rfl⟩ := writeAll_eq_ok.mp hwrite
          rw [ih]
          constructor
          · rintro ⟨rest, h, rfl, rfl⟩
            exact ⟨bytes ++ rest, .piece hwrites h, List.append_assoc _ _ _,
              List.append_assoc _ _ _⟩
          · rintro ⟨all, h, rfl, rfl⟩
            obtain ⟨rest, _, hrest, rfl⟩ := pieces_cons.mp h
            exact ⟨rest, hrest, (List.append_assoc _ _ _).symm, (List.append_assoc _ _ _).symm⟩

theorem decrypted_eq_ok {e : Encryption} {ciphertext plaintext : Bytes} :
    decrypted P e ciphertext = .ok plaintext ↔
      Desktop.decryptFile P e.key e.fileObjectId ciphertext = .ok plaintext := by
  unfold decrypted
  split
  · rename_i h
    simp [h]
  · rename_i h
    simp [h]
  · rename_i h
    simp [h]

/-- What is in the temporary file where the transfer went through. -/
theorem writeResponse_eq_ok {contract : Contract} {events : List Event} {file : Bytes} {n : Nat} :
    writeResponse P env contract events = (file, .ok n) ↔
      Arrived P env contract events file ∧ n = file.length := by
  unfold writeResponse Arrived
  cases contract.encryption with
  | none =>
    dsimp only
    constructor
    · intro h
      split at h
      · cases h
      · rename_i written seen hcopy
        split at h
        · cases h
        · rename_i hgood
          cases h
          obtain ⟨hlength, hsha⟩ := not_or.mp hgood
          obtain ⟨rest, hpieces, hseen, hwritten⟩ :=
            (copy_eq_ok (not_not.mp hlength).le).mp hcopy
          rw [List.nil_append] at hseen hwritten
          subst hseen hwritten
          exact ⟨⟨hpieces, not_not.mp hlength, not_not.mp hsha⟩, rfl⟩
    · rintro ⟨⟨hpieces, hlength, hsha⟩, rfl⟩
      have hcopy : copy contract.expectedBytes events [] [] = (file, .ok file) :=
        (copy_eq_ok hlength.le).mpr ⟨file, hpieces, rfl, rfl⟩
      rw [hcopy]
      exact if_neg (not_or.mpr ⟨not_not.mpr hlength, not_not.mpr hsha⟩)
  | some e =>
    dsimp only
    have hopen : ∀ plaintext, openCiphertext P contract e events = .ok plaintext ↔
        ∃ ciphertext, Pieces (fun _ _ => True) events ciphertext ∧
          ciphertext.length = contract.expectedBytes ∧
          sha256Of P ciphertext = e.encryptedChecksumSha256 ∧
          Desktop.decryptFile P e.key e.fileObjectId ciphertext = .ok plaintext ∧
          plaintext.length = e.plaintextByteSize ∧ sha256Of P plaintext = contract.sha256 ∧
          sha256Of P plaintext = e.plaintextSha256 := by
      intro plaintext
      unfold openCiphertext
      simp only [bind_eq_ok, rejectIf_eq_ok, decrypted_eq_ok, not_or, not_not, pure_ok,
        Except.ok.injEq]
      constructor
      · rintro ⟨ciphertext, hcollect, _, ⟨hlength, hsha⟩, _, hplain, _, ⟨hsize, hsha', hsha''⟩, rfl⟩
        obtain ⟨rest, hpieces, rfl⟩ := (collect_eq_ok hlength.le).mp hcollect
        exact ⟨_, hpieces, hlength, hsha, hplain, hsize, hsha', hsha''⟩
      · rintro ⟨ciphertext, hpieces, hlength, hsha, hplain, hsize, hsha', hsha''⟩
        exact ⟨ciphertext, (collect_eq_ok hlength.le).mpr ⟨ciphertext, hpieces, rfl⟩, (),
          ⟨hlength, hsha⟩, plaintext, hplain, (), ⟨hsize, hsha', hsha''⟩, rfl⟩
    constructor
    · intro h
      split at h
      · cases h
      · rename_i plaintext hplain
        obtain ⟨ciphertext, hpieces, hlength, hsha, hfile, hsize, hsha', hsha''⟩ :=
          (hopen plaintext).mp hplain
        split at h
        · cases h
        · rename_i hwrite
          cases h
          obtain ⟨hwrites, rfl⟩ := writeAll_eq_ok.mp hwrite
          exact ⟨⟨ciphertext, hpieces, hlength, hsha, hfile, hsize, hsha', hsha'', hwrites⟩, rfl⟩
    · rintro ⟨⟨ciphertext, hpieces, hlength, hsha, hfile, hsize, hsha', hsha'', hwrites⟩, rfl⟩
      rw [(hopen file).mpr ⟨ciphertext, hpieces, hlength, hsha, hfile, hsize, hsha', hsha''⟩]
      dsimp only
      rw [writeAll_eq_ok.mpr ⟨hwrites, (List.nil_append _).symm⟩]

theorem validateResponse_eq_ok {response : Response} {contract : Contract} {u : Unit} :
    validateResponse response contract = .ok u ↔ Answered response contract := by
  unfold validateResponse
  simp only [bind_eq_ok, rejectIf_eq_ok, not_or, not_and, not_not, Bool.not_eq_true]
  constructor
  · rintro ⟨_, ⟨hdirect, hstatus, hurl⟩, _, htype, hlength⟩
    refine ⟨hdirect, hstatus, ?_, htype, ?_⟩
    · by_cases hempty : response.url = ""
      · exact .inl hempty
      · exact .inr (hurl hempty)
    · cases hnone : response.contentLength with
      | none => exact .inl rfl
      | some length =>
        rw [hnone] at hlength
        exact .inr (hlength rfl)
  · intro h
    refine ⟨(), ⟨h.direct, h.status, fun hne => h.url.resolve_left hne⟩, (), h.contentType, ?_⟩
    intro hsome
    refine h.contentLength.resolve_left fun hnone => ?_
    rw [hnone] at hsome
    cases hsome

theorem transfer_eq_ok {file : Bytes} {n : Nat} : transfer P env = (file, .ok n) ↔
    (∃ contract, Transferred P env contract file) ∧ n = file.length := by
  have hrequest : ∀ contract events, request env = .ok (contract, events) ↔
      env.contract = .ok contract ∧ contract.purpose = "download" ∧ contract.method = "GET" ∧
        env.now < contract.expiresAt ∧ env.abortedAtStart = false ∧ env.fails .fetch = false ∧
        Answered env.response contract ∧ env.response.body = some events := by
    intro contract events
    unfold request
    simp only [bind_eq_ok, rejectIf_eq_ok, validateResponse_eq_ok, okOr_eq_ok, pure_ok, not_or,
      not_not, Bool.not_eq_true, Except.ok.injEq, Prod.mk.injEq]
    constructor
    · rintro ⟨_, hgranted, _, ⟨hpurpose, hmethod⟩, _, htime, _, hstarted, _, hfetched, _, hanswered,
        _, hbody, rfl, rfl⟩
      exact ⟨hgranted, hpurpose, hmethod, by omega, hstarted, hfetched, hanswered, hbody⟩
    · rintro ⟨hgranted, hpurpose, hmethod, htime, hstarted, hfetched, hanswered, hbody⟩
      exact ⟨contract, hgranted, (), ⟨hpurpose, hmethod⟩, (), by omega, (), hstarted, (), hfetched,
        (), hanswered, events, hbody, rfl, rfl⟩
  unfold transfer
  constructor
  · intro h
    split at h
    · cases h
    · rename_i contract events hreq
      obtain ⟨hgranted, hpurpose, hmethod, htime, hstarted, hfetched, hanswered, hbody⟩ :=
        (hrequest contract events).mp hreq
      obtain ⟨harrived, hlength⟩ := writeResponse_eq_ok.mp h
      exact ⟨⟨contract, hgranted, hpurpose, hmethod, htime, hstarted, hfetched, hanswered, events,
        hbody, harrived⟩, hlength⟩
  · rintro ⟨⟨contract, h⟩, hlength⟩
    obtain ⟨events, hbody, harrived⟩ := h.arrived
    rw [(hrequest contract events).mpr ⟨h.granted, h.purpose, h.method, h.inTime, h.started,
      h.fetched, h.answered, hbody⟩]
    exact writeResponse_eq_ok.mpr ⟨harrived, hlength⟩

/-- The checks before the renaming, on the directory with the temporary file in it. -/
theorem commitChecks_eq_ok (hprepared : Prepared env disk) {content : Bytes} {u : Unit} :
    commitChecks env (Function.update disk env.temporaryPath (some (.file content)))
      (disk env.targetPath) content content.length = .ok u ↔ Committable env disk := by
  have hapart : env.directory ≠ env.temporaryPath := by
    intro heq
    have hdirectory := hprepared.directory
    rw [heq, hprepared.free] at hdirectory
    cases hdirectory
  have hsame : Function.update disk env.temporaryPath (some (.file content)) env.targetPath =
      disk env.targetPath ↔ env.targetPath ≠ env.temporaryPath := by
    constructor
    · intro h heq
      rw [heq, Function.update_self, hprepared.free] at h
      cases h
    · exact fun h => Function.update_of_ne h _ _
  have hseen : ¬ ((disk env.targetPath).isSome = true ∧ env.fails .statTargetAgain = true) ↔
      disk env.targetPath = none ∨ env.fails .statTargetAgain = false := by
    rw [not_and_or, Option.not_isSome_iff_eq_none, Bool.not_eq_true]
  unfold commitChecks verifyTarget
  simp only [bind_eq_ok, call_eq_ok, rejectIf_eq_ok, not_not, Function.update_of_ne hapart, hsame,
    hseen]
  constructor
  · rintro ⟨_, hstat, _, _, _, hsync, _, hdirectory, _, hagain, _, _, _,
      ⟨_, htarget, _, hlstat, happ⟩, hrename⟩
    exact ⟨by simp [hstat, hsync, hdirectory, hagain, hlstat, hrename], htarget, happ⟩
  · intro h
    have hcalls := h.calls
    simp only [List.forall_mem_cons, List.not_mem_nil, false_imp_iff, implies_true,
      and_true] at hcalls
    obtain ⟨hstat, hsync, hdirectory, hagain, hlstat, hrename⟩ := hcalls
    exact ⟨(), hstat, (), trivial, (), hsync, (), hdirectory, (), hagain, (), hprepared.directory,
      (), ⟨(), h.target, (), hlstat, h.apart⟩, hrename⟩

theorem afterRename_eq_ok {content : Bytes} {u : Unit}
    (hthere : disk env.targetPath = some (.file content)) :
    afterRename env disk content.length = .ok u ↔ env.fails .lstatFinal = false ∧
      (env.hasCallback = true → env.fails .onCommittedTarget = false) := by
  unfold afterRename
  simp only [bind_eq_ok, call_eq_ok, rejectIf_eq_ok, not_not, not_and, hthere, Bool.not_eq_true]
  constructor
  · rintro ⟨_, hlstat, _, _, hcallback⟩
    exact ⟨hlstat, hcallback⟩
  · rintro ⟨hlstat, hcallback⟩
    exact ⟨(), hlstat, (), rfl, hcallback⟩

/-- A temporary file that is deleted leaves the directory as it was. -/
theorem cleanup_allOrNothing (hfree : disk env.temporaryPath = none) {content : Bytes}
    {failure : Failure} : AllOrNothing P env disk (cleanup env disk content failure) := by
  unfold cleanup
  dsimp only
  split
  · rename_i hunlink
    intro name
    by_cases hname : name = env.temporaryPath
    · exact .inr ⟨hname, hunlink, rfl⟩
    · exact .inl (Function.update_of_ne hname _ _)
  · intro name
    left
    by_cases hname : name = env.temporaryPath
    · rw [hname, Function.update_self, hfree]
    · rw [Function.update_of_ne hname, Function.update_of_ne hname]

theorem not_allOrNothing {r : Disk × Outcome} {failure : Failure} {name : String}
    (houtcome : r.2 = .rejected failure) (hfailure : failure ≠ some "file_download_cleanup_failed")
    (hchanged : r.1 name ≠ disk name) : ¬ AllOrNothing P env disk r := by
  obtain ⟨after, outcome⟩ := r
  dsimp only at houtcome hchanged
  subst houtcome
  intro h
  rcases h name with hsame | ⟨_, _, hcleanup⟩
  · exact hchanged hsame
  · exact hfailure (Outcome.rejected.inj hcleanup)

theorem matches_of_arrived {contract : Contract} {events : List Event} {content : Bytes}
    (h : Arrived P env contract events content) : Matches P contract content := by
  unfold Arrived at h
  cases hencryption : contract.encryption with
  | none =>
    rw [hencryption] at h
    obtain ⟨_, hlength, hsha⟩ := h
    exact ⟨hsha, by rw [hencryption, hlength]; rfl⟩
  | some e =>
    rw [hencryption] at h
    obtain ⟨_, _, _, _, _, hlength, hsha, _⟩ := h
    exact ⟨hsha, by rw [hencryption, hlength]; rfl⟩

/-- Nothing goes wrong behind the renaming. -/
def Settles (env : Env) : Prop :=
  env.fails .lstatFinal = false ∧ (env.hasCallback = true → env.fails .onCommittedTarget = false)

/-- The download with its temporary file made and a place in the registry. -/
theorem run_iff (hprepared : Prepared env disk) :
    AllOrNothing P env disk (run P env disk (disk env.targetPath)) ↔
      ∀ contract content, Transferred P env contract content → Committable env disk →
        Settles env ∨ disk env.targetPath = some (.file content) := by
  have hfree := hprepared.free
  unfold run
  split
  · rename_i file failure htransfer
    refine iff_of_true (cleanup_allOrNothing hfree) ?_
    intro contract content h
    rw [transfer_eq_ok.mpr ⟨⟨contract, h⟩, rfl⟩] at htransfer
    cases htransfer
  · rename_i file byteSize htransfer
    obtain ⟨⟨contract, htransferred⟩, rfl⟩ := transfer_eq_ok.mp htransfer
    have honly : ∀ contract' content, Transferred P env contract' content → content = file := by
      intro contract' content h
      have hsame := htransfer.symm.trans (transfer_eq_ok.mpr ⟨⟨contract', h⟩, rfl⟩)
      exact (congrArg Prod.fst hsame).symm
    dsimp only
    split
    · rename_i failure hchecks
      refine iff_of_true (cleanup_allOrNothing hfree) ?_
      intro contract' content h hcommittable
      have hok := (@commitChecks_eq_ok _ _ hprepared file ()).mpr hcommittable
      rw [hok] at hchecks
      cases hchecks
    · rename_i hchecks
      have hcommittable := (commitChecks_eq_ok hprepared).mp hchecks
      have hrenamed : Function.update (Function.update (Function.update disk env.temporaryPath
          (some (.file file))) env.temporaryPath none) env.targetPath (some (.file file)) =
          Function.update disk env.targetPath (some (.file file)) := by
        rw [Function.update_idem, ← hfree, Function.update_eq_self]
      rw [hrenamed]
      have hafter := @afterRename_eq_ok env
        (Function.update disk env.targetPath (some (.file file))) file ()
        (Function.update_self _ _ _)
      split
      · rename_i failure hfailed
        have hunsettled : ¬ Settles env := by
          intro h
          rw [hafter.mpr h] at hfailed
          cases hfailed
        constructor
        · intro h contract' content hcontent _
          rw [honly contract' content hcontent]
          rcases h env.targetPath with hsame | ⟨hname, _⟩
          · rw [Function.update_self] at hsame
            exact .inr hsame.symm
          · exact absurd hname hcommittable.apart
        · intro h name
          left
          have hheld := (h contract file htransferred hcommittable).resolve_left hunsettled
          rw [← hheld, Function.update_eq_self]
      · rename_i hsettled
        refine iff_of_true ?_ fun _ _ _ _ => .inl (hafter.mp hsettled)
        obtain ⟨events, _, harrived⟩ := htransferred.arrived
        exact ⟨contract, file, htransferred.granted, matches_of_arrived harrived, rfl, rfl⟩

/-- A download is all or nothing unless the registry is full once the temporary file is made, or
what follows the renaming goes wrong and the target did not hold the same bytes before. -/
theorem all_or_nothing_iff (P : Prims) (env : Env) (disk : Disk) :
    AllOrNothing P env disk (execute P env disk) ↔
      (Prepared env disk → env.registryFull = false ∧
        ∀ contract content, Transferred P env contract content → Committable env disk →
          Settles env ∨ disk env.targetPath = some (.file content)) := by
  unfold execute
  split
  · rename_i hfails
    refine iff_of_true (fun name => .inl rfl) fun h => ?_
    rw [h.asked] at hfails
    cases hfails
  · rename_i hasked
    cases hdialog : env.dialog with
    | cancelled =>
      refine iff_of_true (fun name => .inl rfl) fun h => ?_
      have hchosen := h.chosen
      rw [hdialog] at hchosen
      cases hchosen
    | invalidPath =>
      refine iff_of_true (fun name => .inl rfl) fun h => ?_
      have hchosen := h.chosen
      rw [hdialog] at hchosen
      cases hchosen
    | path =>
      have hprepare : ∀ seen, prepare env disk = .ok seen ↔ _ :=
        fun seen => prepare_eq_ok (Bool.not_eq_true _ ▸ hasked) hdialog
      dsimp only
      split
      · rename_i failure hfailed
        refine iff_of_true (fun name => .inl rfl) fun h => ?_
        rw [(hprepare _).mpr ⟨h, rfl⟩] at hfailed
        cases hfailed
      · rename_i seen hseen
        obtain ⟨hprepared, rfl⟩ := (hprepare seen).mp hseen
        split
        · rename_i hfull
          constructor
          · intro h
            refine absurd h (@not_allOrNothing _ _ _ _ _ env.temporaryPath rfl (by decide) ?_)
            change Function.update disk env.temporaryPath _ env.temporaryPath ≠ _
            rw [Function.update_self, hprepared.free]
            exact Option.some_ne_none _
          · intro h
            rw [(h hprepared).1] at hfull
            cases hfull
        · rename_i hroom
          rw [run_iff hprepared]
          exact ⟨fun h _ => ⟨Bool.not_eq_true _ ▸ hroom, h⟩, fun h => (h hprepared).2⟩

end Lemmas

/-! ## Two downloads that leave something -/

def someBytes : Contract where
  purpose := "download"
  method := "GET"
  url := "https://files.test/a"
  expectedBytes := 2
  contentType := "text/plain"
  sha256 := sha256Of ⟨.plain, .const⟩ [1, 2]
  expiresAt := 1000
  encryption := none

/-- A download over a file with another content. -/
def replacing (fails : Place → Bool) (registryFull : Bool) : Env where
  dialog := .path
  targetPath := "/d/a.txt"
  directory := "/d"
  temporaryPath := "/d/.yuance-download-0.tmp"
  fails := fails
  registryFull := registryFull
  contract := .ok someBytes
  now := 0
  abortedAtStart := false
  abortedLater := false
  response := ⟨false, 200, "", some "text/plain", some "2", some [.piece [1, 2] [.wrote 1]]⟩
  plaintextWrites := []
  hasCallback := false

def onDisk : Disk
  | "/d" => some .directory
  | "/d/a.txt" => some (.file [9])
  | _ => none

/-- The last `lstat` rejects, or the registry is full: the target is replaced, or the temporary file
stays. -/
theorem rejected_downloads_leave_files :
    ¬ AllOrNothing ⟨.plain, .const⟩ (replacing (· == .lstatFinal) false) onDisk
      (execute ⟨.plain, .const⟩ (replacing (· == .lstatFinal) false) onDisk) ∧
    ¬ AllOrNothing ⟨.plain, .const⟩ (replacing (fun _ => false) true) onDisk
      (execute ⟨.plain, .const⟩ (replacing (fun _ => false) true) onDisk) := by
  constructor
  · exact @not_allOrNothing _ _ _ _ (some "file_transfer_failed") "/d/a.txt"
      (by decide +kernel) (by decide) (by decide +kernel)
  · exact @not_allOrNothing _ _ _ _ (some "file_transfer_concurrency_limit")
      "/d/.yuance-download-0.tmp" (by decide +kernel) (by decide) (by decide +kernel)

end Download
end Files
end Yuance
