import Yuance.Lib.Runs
import Yuance.Lib.Table
import Yuance.Platform.Crypto

/-!
# Yuance.Storage.Configs

The object storage configurations of `api/src/domains/storage.rs`: saving one, going back to an
earlier version, and loading one with its secrets. The calls follow one another; the nonces, the time
and the statements that fail are those of the call.

* `saveConfig`, `rollbackConfig`: the two calls that write.
* `Ledger`: what was given at each save, and which of these is active.
* `storage_configs_are_versioned`: the tables keep the ledger over every sequence of calls.
-/

namespace Yuance
namespace Storage

open Lib Platform

/-! ## The tables -/

inductive Status where
  | draft
  | active
  | disabled
  deriving DecidableEq, Repr

/-- The columns that both tables have. -/
structure Sealed where
  provider : String
  endpoint : String
  region : String
  bucket : String
  accessKeyIdHint : String
  accessKeyIdCiphertext : String
  accessKeySecretCiphertext : String
  deriving DecidableEq, Repr

/-- A row of `storage_configs`. -/
structure ConfigRow extends Sealed where
  id : Int
  status : Status
  version : Int
  createdByUserId : Int
  updatedByUserId : Int
  createdAt : String
  updatedAt : String
  deriving DecidableEq, Repr

/-- A row of `storage_config_versions`. -/
structure VersionRow extends Sealed where
  id : Int
  storageConfigId : Int
  version : Int
  status : Status
  createdByUserId : Int
  createdAt : String
  deriving DecidableEq, Repr

structure Db where
  configs : List ConfigRow
  nextConfig : Int
  versions : List VersionRow
  nextVersion : Int
  deriving DecidableEq, Repr

def Db.empty : Db := ⟨[], 1, [], 1⟩

structure StorageConfig where
  id : Int
  provider : String
  endpoint : String
  region : String
  bucket : String
  accessKeyIdHint : String
  status : Status
  version : Int
  updatedAt : String
  deriving DecidableEq, Repr

def storageConfigFromRow (row : ConfigRow) : StorageConfig :=
  { id := row.id, provider := row.provider, endpoint := row.endpoint, region := row.region,
    bucket := row.bucket, accessKeyIdHint := row.accessKeyIdHint, status := row.status,
    version := row.version, updatedAt := row.updatedAt }

structure SaveStorageConfigInput where
  endpoint : String
  region : String
  bucket : String
  accessKeyId : String
  accessKeySecret : String
  activate : Bool
  deriving DecidableEq, Repr

structure Settings where
  env : String
  securityMasterKey : String

/-- What a call draws and when it runs, and which of its statements fail. -/
structure Moment where
  now : String
  keyIdNonce : FixedBytes 12
  secretNonce : FixedBytes 12
  selectFails : Bool
  transactionFails : Bool
  rereadFails : Bool

/-! ## Checks of the input -/

def storageProviderAliyunOss : String := "aliyun_oss"

def defaultAliyunOssEndpoint : String := "https://oss-cn-hangzhou.aliyuncs.com"

def defaultAliyunOssRegion : String := "oss-cn-hangzhou"

def defaultAliyunOssBucket : String := "yuance-files"

def testMemoryEndpoint : String := "memory://yuance-tests"

def validateRequired (label value : String) : Except AppError String := do
  rejectIf (trim value = "") (.badRequest (label ++ " 不能为空"))
  pure (trim value)

def defaultIfBlank (value fallback : String) : String :=
  if trim value = "" then fallback else trim value

def validateRequiredUrlish (label value : String) : Except AppError String := do
  let value ← validateRequired label value
  if value = testMemoryEndpoint then pure value
  else do
    rejectIf (¬ (hasHead "http://" value ∨ hasHead "https://" value))
      (.badRequest (label ++ " 必须以 http:// 或 https:// 开头"))
    pure value

def isBucketChar (c : Char) : Bool :=
  ('a' ≤ c && c ≤ 'z') || ('0' ≤ c && c ≤ '9') || c = '-'

def validateBucket (bucket : String) : Except AppError String := do
  let bucket ← validateRequired "Bucket" bucket
  rejectIf (byteLen bucket > 128 ∨ ¬ bucket.toList.all isBucketChar)
    (.badRequest "Bucket 只能包含小写字母、数字和中划线，且不能超过 128 个字符")
  pure bucket

/-- The first four and the last four bytes of a key that is longer than eight. A cut inside a
character panics. -/
def accessKeyIdHint (accessKeyId : String) : Except AppError String :=
  let value := trim accessKeyId
  if byteLen value ≤ 8 then .ok "****"
  else do
    let (front, _) ← okOr (splitAtByte 4 value.toList) .panicked
    let (_, back) ← okOr (splitAtByte (byteLen value - 4) value.toList) .panicked
    pure (String.ofList front ++ "****" ++ String.ofList back)

def storageSecretAad (provider bucket accessKeyIdHint : String) : String :=
  provider ++ ":" ++ bucket ++ ":" ++ accessKeyIdHint

/-- What `save_config` does before its transaction. -/
def sealConfig (P : SecretPrims) (settings : Settings) (m : Moment) (input : SaveStorageConfigInput) :
    Except AppError Sealed := do
  let endpoint ← validateRequiredUrlish "Endpoint"
    (defaultIfBlank input.endpoint defaultAliyunOssEndpoint)
  rejectIf (endpoint = testMemoryEndpoint ∧ settings.env ≠ "test")
    (.invalidEnvironment "memory 测试对象存储只允许在 test 环境使用")
  let region := defaultIfBlank input.region defaultAliyunOssRegion
  let bucket ← validateBucket (defaultIfBlank input.bucket defaultAliyunOssBucket)
  let accessKeyId ← validateRequired "AccessKey ID" input.accessKeyId
  let accessKeySecret ← validateRequired "AccessKey Secret" input.accessKeySecret
  let hint ← accessKeyIdHint accessKeyId
  let aad := utf8 (storageSecretAad storageProviderAliyunOss bucket hint)
  let idCiphertext ← Crypto.encryptSecret P m.keyIdNonce settings.securityMasterKey accessKeyId aad
  let secretCiphertext ←
    Crypto.encryptSecret P m.secretNonce settings.securityMasterKey accessKeySecret aad
  pure { provider := storageProviderAliyunOss, endpoint := endpoint, region := region,
         bucket := bucket, accessKeyIdHint := hint, accessKeyIdCiphertext := idCiphertext,
         accessKeySecretCiphertext := secretCiphertext }

/-- Both secrets, under the associated data of the row. -/
def openSealed (P : SecretPrims) (settings : Settings) (row : Sealed) :
    Except AppError (String × String) := do
  let aad := utf8 (storageSecretAad row.provider row.bucket row.accessKeyIdHint)
  let accessKeyId ←
    Crypto.decryptSecret P settings.securityMasterKey row.accessKeyIdCiphertext aad
  let accessKeySecret ←
    Crypto.decryptSecret P settings.securityMasterKey row.accessKeySecretCiphertext aad
  pure (accessKeyId, accessKeySecret)

/-! ## Statements -/

def ConfigRow.isActive (row : ConfigRow) : Bool :=
  row.provider == storageProviderAliyunOss && row.status == .active

def ConfigRow.disable (now : String) (updatedBy : Option Int) (row : ConfigRow) : ConfigRow :=
  { row with
    status := .disabled
    updatedAt := now
    updatedByUserId := updatedBy.getD row.updatedByUserId }

/-- The active configurations become disabled; `rollback_config` says by whom. -/
def Db.disableActive (db : Db) (now : String) (updatedBy : Option Int) : Db :=
  { db with configs := updateWhere ConfigRow.isActive (ConfigRow.disable now updatedBy) db.configs }

/-- `COALESCE(MAX(version), 0) + 1`. -/
def Db.versionNumber (db : Db) : Int :=
  (((db.configs.filter (·.provider == storageProviderAliyunOss)).map (·.version)).max?).getD 0 + 1

/-- The rows that a new configuration gets in both tables. -/
def Db.insertConfig (db : Db) (now : String) (actor : Int) (fields : Sealed) (status : Status) : Db :=
  let version := db.versionNumber
  { configs := db.configs ++ [{ toSealed := fields, id := db.nextConfig, status := status,
                                version := version, createdByUserId := actor,
                                updatedByUserId := actor, createdAt := now, updatedAt := now }]
    nextConfig := db.nextConfig + 1
    versions := db.versions ++ [{ toSealed := fields, id := db.nextVersion,
                                  storageConfigId := db.nextConfig, version := version,
                                  status := status, createdByUserId := actor, createdAt := now }]
    nextVersion := db.nextVersion + 1 }

def Db.latestConfig (db : Db) : Option ConfigRow :=
  (orderBy (descending (·.version) (·.id))
    (db.configs.filter (·.provider == storageProviderAliyunOss))).head?

def Db.activeConfig (db : Db) : Option ConfigRow :=
  (orderBy (descending (·.version) (·.id)) (db.configs.filter ConfigRow.isActive)).head?

/-- `ORDER BY id DESC LIMIT 1` among the rows of a version. -/
def Db.configVersion (db : Db) (version : Int) : Option VersionRow :=
  (orderBy (fun a b => decide (b.id ≤ a.id)) (db.versions.filter fun row =>
    row.provider == storageProviderAliyunOss && row.version == version)).head?

/-! ## Calls -/

/-- `latest_config` at the end of a call that has written. -/
def reread (m : Moment) (db : Db) : Except AppError StorageConfig := do
  rejectIf (m.rereadFails = true) .storage
  let row ← okOr db.latestConfig .storage
  pure (storageConfigFromRow row)

def saveConfig (P : SecretPrims) (settings : Settings) (m : Moment) (actor : Int)
    (input : SaveStorageConfigInput) (db : Db) : Db × Except AppError StorageConfig :=
  match sealConfig P settings m input with
  | .error e => (db, .error e)
  | .ok fields =>
    if m.transactionFails then (db, .error .storage)
    else
      let cleared := if input.activate then db.disableActive m.now none else db
      let saved := cleared.insertConfig m.now actor fields (if input.activate then .active else .draft)
      (saved, reread m saved)

/-- What `rollback_config` does before its transaction. -/
def findVersion (P : SecretPrims) (settings : Settings) (m : Moment) (sourceVersion : Int) (db : Db) :
    Except AppError Sealed := do
  rejectIf (sourceVersion ≤ 0) (.badRequest "配置版本号无效")
  rejectIf (m.selectFails = true) .storage
  let row ← okOr (db.configVersion sourceVersion)
    (.notFound ("对象存储配置版本 v" ++ toString sourceVersion ++ " 不存在"))
  let _ ← openSealed P settings row.toSealed
  pure row.toSealed

def rollbackConfig (P : SecretPrims) (settings : Settings) (m : Moment) (actor sourceVersion : Int)
    (db : Db) : Db × Except AppError StorageConfig :=
  match findVersion P settings m sourceVersion db with
  | .error e => (db, .error e)
  | .ok fields =>
    if m.transactionFails then (db, .error .storage)
    else
      let restored := (db.disableActive m.now (some actor)).insertConfig m.now actor fields .active
      (restored, reread m restored)

def loadActiveConfigWithSecret (P : SecretPrims) (settings : Settings) (db : Db) :
    Except AppError (Option (StorageConfig × String × String)) :=
  match db.activeConfig with
  | none => .ok none
  | some row => do
    let secrets ← openSealed P settings row.toSealed
    pure (some (storageConfigFromRow row, secrets))

def loadStorageConfigWithSecretById (P : SecretPrims) (settings : Settings) (storageConfigId : Int)
    (db : Db) : Except AppError (Option (StorageConfig × String × String)) :=
  match db.configs.find? (·.id == storageConfigId) with
  | none => .ok none
  | some row => do
    let secrets ← openSealed P settings row.toSealed
    pure (some (storageConfigFromRow row, secrets))

inductive Request where
  | saveConfig (actor : Int) (input : SaveStorageConfigInput)
  | rollbackConfig (actor sourceVersion : Int)

/-- One call of a sequence. -/
def handle (P : SecretPrims) (settings : Settings) (db : Db) (e : Moment × Request) :
    Option (Db × Except AppError StorageConfig) :=
  match e.2 with
  | .saveConfig actor input => some (saveConfig P settings e.1 actor input db)
  | .rollbackConfig actor sourceVersion => some (rollbackConfig P settings e.1 actor sourceVersion db)

/-! ## The ledger -/

/-- What a configuration is made of. -/
structure Content where
  endpoint : String
  region : String
  bucket : String
  accessKeyId : String
  accessKeySecret : String
  deriving DecidableEq, Repr

/-- What is given at a save, a blank endpoint, region or bucket being replaced. -/
def SaveStorageConfigInput.content (input : SaveStorageConfigInput) : Content where
  endpoint := defaultIfBlank input.endpoint defaultAliyunOssEndpoint
  region := defaultIfBlank input.region defaultAliyunOssRegion
  bucket := defaultIfBlank input.bucket defaultAliyunOssBucket
  accessKeyId := trim input.accessKeyId
  accessKeySecret := trim input.accessKeySecret

/-- The contents of version 1, 2 and so on, and the position of the active one. -/
structure Ledger where
  contents : List Content
  active : Option Nat

def Ledger.empty : Ledger := ⟨[], none⟩

def Ledger.append (ledger : Ledger) (content : Content) (activate : Bool) : Ledger where
  contents := ledger.contents ++ [content]
  active := if activate then some ledger.contents.length else ledger.active

/-- A configuration that a call or a load returns has the content. -/
structure Shows (config : StorageConfig) (content : Content) : Prop where
  endpoint : config.endpoint = content.endpoint
  region : config.region = content.region
  bucket : config.bucket = content.bucket

/-- A returned configuration is the newest version. -/
def Returned (out : Except AppError StorageConfig) (ledger : Ledger) (content : Content) : Prop :=
  ∀ config, out = .ok config → config.version = ledger.contents.length + 1 ∧ Shows config content

inductive Ledger.Step (ledger : Ledger) :
    Request → Except AppError StorageConfig → Ledger → Prop where
  | refused {request : Request} {e : AppError} : Step ledger request (.error e) ledger
  | saved {actor : Int} {input : SaveStorageConfigInput} {out : Except AppError StorageConfig}
      (hout : Returned out ledger input.content) :
      Step ledger (.saveConfig actor input) out (ledger.append input.content input.activate)
  | restored {actor : Int} {k : Nat} {content : Content} {out : Except AppError StorageConfig}
      (hcontent : ledger.contents[k]? = some content) (hout : Returned out ledger content) :
      Step ledger (.rollbackConfig actor (k + 1)) out (ledger.append content true)

abbrev Call := Entry Db (Moment × Request) (Except AppError StorageConfig)

/-- The ledger of a sequence of calls. -/
inductive Replays : List Call → Ledger → Prop where
  | start : Replays [] .empty
  | next {tr : List Call} {ledger ledger' : Ledger} {x : Call} (h : Replays tr ledger)
      (hx : ledger.Step x.event.2 x.out ledger') : Replays (tr ++ [x]) ledger'

/-- A loaded configuration with its secrets. -/
def Loads (loaded : Except AppError (Option (StorageConfig × String × String))) (content : Content) :
    Prop :=
  ∃ config, loaded = .ok (some (config, content.accessKeyId, content.accessKeySecret)) ∧
    Shows config content

/-- Row by row, what a later state keeps of an earlier one. -/
def KeepsRows (db db' : Db) : Prop :=
  (∀ (k : Nat) row, db.configs[k]? = some row → ∃ row', db'.configs[k]? = some row' ∧
    row' = { row with status := row'.status, updatedAt := row'.updatedAt,
                      updatedByUserId := row'.updatedByUserId }) ∧
  db.versions <+: db'.versions

/-- The key is cut between characters. -/
def Cuts (accessKeyId : String) : Prop :=
  byteLen accessKeyId ≤ 8 ∨
    ∃ front middle back, accessKeyId = front ++ middle ++ back ∧ byteLen front = 4 ∧ byteLen back = 4

/-! ## Before the transaction -/

section Sealing

variable {P : SecretPrims} {settings : Settings} {m : Moment} {input : SaveStorageConfigInput}

/-- The columns of a row hold the content. -/
structure Keeps (P : SecretPrims) (settings : Settings) (content : Content) (fields : Sealed) : Prop where
  provider : fields.provider = storageProviderAliyunOss
  endpoint : fields.endpoint = content.endpoint
  region : fields.region = content.region
  bucket : fields.bucket = content.bucket
  secrets : openSealed P settings fields = .ok (content.accessKeyId, content.accessKeySecret)

theorem trim_defaultIfBlank {value fallback : String} (h : trim fallback = fallback) :
    trim (defaultIfBlank value fallback) = defaultIfBlank value fallback := by
  unfold defaultIfBlank
  split
  · exact h
  · exact trim_trim value

theorem validateRequired_eq {label value a : String} (h : validateRequired label value = .ok a) :
    a = trim value := by
  obtain ⟨_, _, h⟩ := bind_eq_ok.mp h
  exact (Except.ok.inj h).symm

theorem validateRequiredUrlish_eq {label value a : String}
    (h : validateRequiredUrlish label value = .ok a) : a = trim value := by
  obtain ⟨b, hb, h⟩ := bind_eq_ok.mp h
  obtain rfl := validateRequired_eq hb
  split at h
  · exact (Except.ok.inj h).symm
  · obtain ⟨_, _, h⟩ := bind_eq_ok.mp h
    exact (Except.ok.inj h).symm

theorem validateBucket_eq {value a : String} (h : validateBucket value = .ok a) : a = trim value := by
  obtain ⟨b, hb, h⟩ := bind_eq_ok.mp h
  obtain rfl := validateRequired_eq hb
  obtain ⟨_, _, h⟩ := bind_eq_ok.mp h
  exact (Except.ok.inj h).symm

theorem sealConfig_keeps {fields : Sealed} (h : sealConfig P settings m input = .ok fields) :
    Keeps P settings input.content fields := by
  obtain ⟨endpoint, hendpoint, h⟩ := bind_eq_ok.mp h
  obtain ⟨_, _, h⟩ := bind_eq_ok.mp h
  dsimp only at h
  obtain ⟨bucket, hbucket, h⟩ := bind_eq_ok.mp h
  obtain ⟨accessKeyId, hid, h⟩ := bind_eq_ok.mp h
  obtain ⟨accessKeySecret, hsecret, h⟩ := bind_eq_ok.mp h
  obtain ⟨hint, _, h⟩ := bind_eq_ok.mp h
  obtain ⟨idCiphertext, hidCiphertext, h⟩ := bind_eq_ok.mp h
  obtain ⟨secretCiphertext, hsecretCiphertext, h⟩ := bind_eq_ok.mp h
  obtain rfl := Except.ok.inj h
  obtain rfl := validateRequiredUrlish_eq hendpoint
  obtain rfl := validateBucket_eq hbucket
  obtain rfl := validateRequired_eq hid
  obtain rfl := validateRequired_eq hsecret
  refine ⟨rfl, trim_defaultIfBlank (by decide +kernel), rfl,
    trim_defaultIfBlank (by decide +kernel), ?_⟩
  unfold openSealed
  dsimp only
  rw [Crypto.decryptSecret_encryptSecret hidCiphertext, ok_bind,
    Crypto.decryptSecret_encryptSecret hsecretCiphertext, ok_bind]
  rfl

theorem accessKeyIdHint_ne_panicked {accessKeyId : String} (h : Cuts (trim accessKeyId)) :
    accessKeyIdHint accessKeyId ≠ .error .panicked := by
  unfold accessKeyIdHint
  dsimp only
  rcases h with hshort | ⟨front, middle, back, htext, hfront, hback⟩
  · rw [if_pos hshort]
    exact fun h => (by cases h)
  · split
    · exact fun h => (by cases h)
    · have hhead : splitAtByte 4 (trim accessKeyId).toList =
          some (front.toList, middle.toList ++ back.toList) := by
        rw [htext, ← hfront, String.toList_append, String.toList_append, List.append_assoc]
        exact splitAtByte_append _ _
      have hlast : byteLen (trim accessKeyId) - 4 = byteLen (front ++ middle) := by
        rw [htext, byteLen_append, hback, Nat.add_sub_cancel]
      have htail : splitAtByte (byteLen (trim accessKeyId) - 4) (trim accessKeyId).toList =
          some ((front ++ middle).toList, back.toList) := by
        have hchars : (front ++ middle ++ back).toList = (front ++ middle).toList ++ back.toList :=
          String.toList_append
        rw [hlast, htext, hchars]
        exact splitAtByte_append _ _
      rw [hhead, okOr_some, ok_bind]
      dsimp only
      rw [htail, okOr_some, ok_bind]
      exact fun h => (by cases h)

theorem validateRequired_ne_panicked (label value : String) :
    validateRequired label value ≠ .error .panicked :=
  bind_ne_error (rejectIf_ne_error (by simp)) fun _ _ h => (by cases h)

theorem encryptSecret_ne_panicked (nonce : FixedBytes 12) (masterKey plaintext : String) (aad : Bytes) :
    Crypto.encryptSecret P nonce masterKey plaintext aad ≠ .error .panicked := by
  refine bind_ne_error ?_ fun _ _ h => (by cases h)
  exact bind_ne_error (rejectIf_ne_error (by simp)) fun _ _ h => (by cases h)

theorem sealConfig_ne_panicked (h : Cuts (trim input.accessKeyId)) :
    sealConfig P settings m input ≠ .error .panicked := by
  refine bind_ne_error ?_ fun endpoint _ => ?_
  · refine bind_ne_error (validateRequired_ne_panicked _ _) fun value _ => ?_
    split
    · exact fun h => (by cases h)
    · exact bind_ne_error (rejectIf_ne_error (by simp)) fun _ _ h => (by cases h)
  refine bind_ne_error (rejectIf_ne_error (by simp)) fun _ _ => ?_
  refine bind_ne_error ?_ fun bucket _ => ?_
  · refine bind_ne_error (validateRequired_ne_panicked _ _) fun value _ => ?_
    exact bind_ne_error (rejectIf_ne_error (by simp)) fun _ _ h => (by cases h)
  refine bind_ne_error (validateRequired_ne_panicked _ _) fun accessKeyId hid => ?_
  obtain rfl := validateRequired_eq hid
  refine bind_ne_error (validateRequired_ne_panicked _ _) fun accessKeySecret _ => ?_
  refine bind_ne_error (accessKeyIdHint_ne_panicked (by rwa [trim_trim])) fun hint _ => ?_
  refine bind_ne_error (encryptSecret_ne_panicked _ _ _ _) fun _ _ => ?_
  exact bind_ne_error (encryptSecret_ne_panicked _ _ _ _) fun _ _ h => (by cases h)

end Sealing

/-! ## The tables keep the ledger -/

/-- Row by row, the tables hold the ledger. -/
structure Holds (P : SecretPrims) (settings : Settings) (ledger : Ledger) (db : Db) : Prop where
  size : db.configs.length = ledger.contents.length
  configs : ∀ (k : Nat) row, db.configs[k]? = some row → row.id = k + 1 ∧ row.version = k + 1 ∧
    (row.status = .active ↔ ledger.active = some k) ∧
    ∃ content, ledger.contents[k]? = some content ∧ Keeps P settings content row.toSealed
  versions : ∀ (k : Nat) row, db.versions[k]? = some row → row.version = k + 1 ∧
    ∃ content, ledger.contents[k]? = some content ∧ Keeps P settings content row.toSealed
  versionsSize : db.versions.length = ledger.contents.length
  nextConfig : db.nextConfig = ledger.contents.length + 1
  active : ∀ k, ledger.active = some k → k < ledger.contents.length

section Steps

variable {P : SecretPrims} {settings : Settings} {m : Moment} {ledger : Ledger} {db : Db}
  {content : Content} {fields : Sealed} {now : String} {actor : Int} {updatedBy : Option Int}

theorem holds_empty : Holds P settings .empty .empty :=
  ⟨rfl, fun _ _ h => (by cases h), fun _ _ h => (by cases h), rfl, rfl, fun _ h => (by cases h)⟩

theorem Holds.isActive_iff (h : Holds P settings ledger db) {k : Nat} {row : ConfigRow}
    (hrow : db.configs[k]? = some row) : row.isActive = true ↔ ledger.active = some k := by
  obtain ⟨_, _, hactive, content, _, hkeeps⟩ := h.configs k row hrow
  unfold ConfigRow.isActive
  rw [hkeeps.provider, beq_self_eq_true, Bool.true_and, beq_iff_eq]
  exact hactive

theorem Holds.disable (h : Holds P settings ledger db) (now : String) (updatedBy : Option Int) :
    Holds P settings ⟨ledger.contents, none⟩ (db.disableActive now updatedBy) := by
  refine ⟨?_, ?_, h.versions, h.versionsSize, h.nextConfig, fun _ hk => (by cases hk)⟩
  · exact (List.length_map ..).trans h.size
  · intro k row hrow
    obtain ⟨old, hold, rfl⟩ := List.getElem?_map ▸ hrow |> Option.map_eq_some_iff.mp
    obtain ⟨hid, hversion, hactive, hcontent⟩ := h.configs k old hold
    by_cases hold' : old.isActive = true
    · rw [if_pos hold']
      exact ⟨hid, hversion, ⟨fun hs => (by cases hs), fun hs => (by cases hs)⟩, hcontent⟩
    · rw [if_neg hold']
      refine ⟨hid, hversion, ⟨fun hs => ?_, fun hs => (by cases hs)⟩, hcontent⟩
      exact absurd ((h.isActive_iff hold).mpr (hactive.mp hs)) hold'

/-- All configurations are of the one provider. -/
theorem Holds.provider (h : Holds P settings ledger db) :
    db.configs.filter (·.provider == storageProviderAliyunOss) = db.configs := by
  rw [List.filter_eq_self]
  intro row hrow
  obtain ⟨k, hk⟩ := List.mem_iff_getElem?.mp hrow
  obtain ⟨_, _, _, content, _, hkeeps⟩ := h.configs k row hk
  exact beq_iff_eq.mpr hkeeps.provider

theorem Holds.versionNumber (h : Holds P settings ledger db) :
    db.versionNumber = ledger.contents.length + 1 := by
  unfold Db.versionNumber
  rw [h.provider]
  by_cases hempty : db.configs = []
  · rw [← h.size, hempty]
    rfl
  · have hlast := List.getElem?_eq_getElem (i := db.configs.length - 1)
      (Nat.sub_lt (List.length_pos_iff.mpr hempty) Nat.one_pos)
    have hpos := List.length_pos_iff.mpr hempty
    have hmax : (db.configs.map (·.version)).max? = some (ledger.contents.length : Int) := by
      rw [List.max?_eq_some_iff]
      constructor
      · refine List.mem_map.mpr ⟨_, List.mem_of_getElem? hlast, ?_⟩
        rw [(h.configs _ _ hlast).2.1, ← h.size]
        omega
      · intro version hversion
        obtain ⟨row, hrow, rfl⟩ := List.mem_map.mp hversion
        obtain ⟨k, hk⟩ := List.mem_iff_getElem?.mp hrow
        have hlt := (List.getElem?_eq_some_iff.mp hk).1
        rw [(h.configs k row hk).2.1, ← h.size]
        omega
    rw [hmax, Option.getD_some]

theorem Holds.insert (h : Holds P settings ledger db) (hkeeps : Keeps P settings content fields)
    {activate : Bool} (hclear : activate = true → ledger.active = none) (now : String) (actor : Int) :
    Holds P settings (ledger.append content activate)
      (db.insertConfig now actor fields (if activate then .active else .draft)) := by
  have hlength : (ledger.append content activate).contents.length = ledger.contents.length + 1 :=
    List.length_append
  have hnew : (ledger.append content activate).contents[ledger.contents.length]? = some content :=
    List.getElem?_concat_length
  have hold : ∀ {k : Nat} {old : Content}, ledger.contents[k]? = some old →
      (ledger.append content activate).contents[k]? = some old := by
    intro k old hk
    exact (List.getElem?_append_left (List.getElem?_eq_some_iff.mp hk).1).trans hk
  refine ⟨?_, ?_, ?_, ?_, ?_, ?_⟩
  · rw [hlength, ← h.size]
    exact List.length_append
  · intro k row hrow
    rcases getElem?_concat hrow with hrow | ⟨rfl, rfl⟩
    · obtain ⟨hid, hversion, hactive, old, hcontent, hold'⟩ := h.configs k row hrow
      refine ⟨hid, hversion, hactive.trans ?_, old, hold hcontent, hold'⟩
      have hlt := (List.getElem?_eq_some_iff.mp hcontent).1
      unfold Ledger.append
      dsimp only
      split
      · rename_i hactivate
        rw [hclear hactivate]
        exact ⟨fun hk => (by cases hk), fun hk => absurd (Option.some.inj hk) (by omega)⟩
      · exact Iff.rfl
    · rw [h.size]
      refine ⟨h.nextConfig, h.versionNumber, ?_, content, hnew, hkeeps⟩
      unfold Ledger.append
      dsimp only
      split
      · exact ⟨fun _ => rfl, fun _ => rfl⟩
      · exact ⟨fun hs => (by cases hs), fun hk => absurd (h.active _ hk) (Nat.lt_irrefl _)⟩
  · intro k row hrow
    rcases getElem?_concat hrow with hrow | ⟨rfl, rfl⟩
    · obtain ⟨hversion, old, hcontent, hold'⟩ := h.versions k row hrow
      exact ⟨hversion, old, hold hcontent, hold'⟩
    · rw [h.versionsSize]
      exact ⟨h.versionNumber, content, hnew, hkeeps⟩
  · rw [hlength, ← h.versionsSize]
    exact List.length_append
  · rw [hlength]
    change db.nextConfig + 1 = _
    rw [h.nextConfig]
    push_cast
    rfl
  · intro k hk
    rw [hlength]
    unfold Ledger.append at hk
    dsimp only at hk
    split at hk
    · obtain rfl := Option.some.inj hk
      exact Nat.lt_succ_self _
    · exact Nat.lt_succ_of_lt (h.active k hk)

/-- The newest version is the last row. -/
theorem Holds.latestConfig (h : Holds P settings ledger db) {k : Nat} {row : ConfigRow}
    (hrow : db.configs[k]? = some row) (hlast : ledger.contents.length = k + 1) :
    db.latestConfig = some row := by
  unfold Db.latestConfig
  rw [h.provider]
  refine orderBy_head_eq descending_total descending_trans (List.mem_of_getElem? hrow) ?_
  intro other hother hbefore
  obtain ⟨j, hj⟩ := List.mem_iff_getElem?.mp hother
  have hversion := (h.configs k row hrow).2.1
  have hother := (h.configs j other hj).2.1
  have hlt := (List.getElem?_eq_some_iff.mp hj).1
  rw [h.size] at hlt
  have hle : row.version ≤ other.version := by
    rcases descending_iff.mp hbefore with hgt | ⟨heq, _⟩
    · exact le_of_lt hgt
    · exact le_of_eq heq.symm
  obtain rfl : j = k := by omega
  rw [hrow] at hj
  exact (Option.some.inj hj).symm

theorem reread_ne_panicked : reread m db ≠ .error .panicked := by
  refine bind_ne_error (rejectIf_ne_error (by simp)) fun _ _ => ?_
  exact bind_ne_error (okOr_ne_error (by simp)) fun _ _ h => (by cases h)

/-- What a call returns that has written. -/
theorem Holds.returned {activate : Bool} (h : Holds P settings (ledger.append content activate) db) :
    Returned (reread m db) ledger content := by
  intro config hconfig
  have hlength : (ledger.append content activate).contents.length = ledger.contents.length + 1 :=
    List.length_append
  obtain ⟨_, _, hconfig⟩ := bind_eq_ok.mp hconfig
  obtain ⟨row, hrow, hconfig⟩ := bind_eq_ok.mp hconfig
  obtain rfl := Except.ok.inj hconfig
  have hlt : ledger.contents.length < db.configs.length := by
    rw [h.size, hlength]
    exact Nat.lt_succ_self _
  have hlast := List.getElem?_eq_getElem hlt
  have hlatest := h.latestConfig hlast hlength
  rw [okOr_eq_ok, hlatest] at hrow
  obtain rfl := Option.some.inj hrow
  obtain ⟨_, hversion, _, kept, hkept, hkeeps⟩ := h.configs _ _ hlast
  have hnew : (ledger.append content activate).contents[ledger.contents.length]? = some content :=
    List.getElem?_concat_length
  rw [hnew] at hkept
  obtain rfl := Option.some.inj hkept
  exact ⟨hversion, hkeeps.endpoint, hkeeps.region, hkeeps.bucket⟩

/-- The row that `rollback_config` reads. -/
theorem Holds.configVersion (h : Holds P settings ledger db) {version : Int} {row : VersionRow}
    (hrow : db.configVersion version = some row) :
    ∃ (k : Nat) (content : Content), version = k + 1 ∧ ledger.contents[k]? = some content ∧
      Keeps P settings content row.toSealed := by
  have hmem := mem_orderBy.mp (List.mem_of_mem_head? hrow)
  obtain ⟨hmem, hwhere⟩ := List.mem_filter.mp hmem
  obtain ⟨k, hk⟩ := List.mem_iff_getElem?.mp hmem
  obtain ⟨hversion, content, hcontent, hkeeps⟩ := h.versions k row hk
  rw [Bool.and_eq_true, beq_iff_eq, beq_iff_eq] at hwhere
  exact ⟨k, content, hwhere.2.symm.trans hversion, hcontent, hkeeps⟩

theorem Holds.findVersion (h : Holds P settings ledger db) {version : Int}
    (hfound : findVersion P settings m version db = .ok fields) :
    ∃ (k : Nat) (content : Content), version = k + 1 ∧ ledger.contents[k]? = some content ∧
      Keeps P settings content fields := by
  obtain ⟨_, _, hfound⟩ := bind_eq_ok.mp hfound
  obtain ⟨_, _, hfound⟩ := bind_eq_ok.mp hfound
  obtain ⟨row, hrow, hfound⟩ := bind_eq_ok.mp hfound
  obtain ⟨_, _, hfound⟩ := bind_eq_ok.mp hfound
  obtain rfl := Except.ok.inj hfound
  exact h.configVersion (okOr_eq_ok.mp hrow)

theorem Holds.findVersion_ne_panicked (h : Holds P settings ledger db) {version : Int} :
    Storage.findVersion P settings m version db ≠ .error .panicked := by
  refine bind_ne_error (rejectIf_ne_error (by simp)) fun _ _ => ?_
  refine bind_ne_error (rejectIf_ne_error (by simp)) fun _ _ => ?_
  refine bind_ne_error (okOr_ne_error (by simp)) fun row hrow => ?_
  obtain ⟨_, _, _, _, hkeeps⟩ := h.configVersion (okOr_eq_ok.mp hrow)
  rw [hkeeps.secrets, ok_bind]
  exact fun h => (by cases h)

/-! ### Rows -/

theorem keepsRows_refl : KeepsRows db db :=
  ⟨fun _ row hrow => ⟨row, hrow, rfl⟩, List.prefix_refl _⟩

theorem KeepsRows.trans {db' db'' : Db} (h : KeepsRows db db') (h' : KeepsRows db' db'') :
    KeepsRows db db'' := by
  refine ⟨fun k row hrow => ?_, h.2.trans h'.2⟩
  obtain ⟨row', hrow', heq⟩ := h.1 k row hrow
  obtain ⟨row'', hrow'', heq'⟩ := h'.1 k row' hrow'
  refine ⟨row'', hrow'', ?_⟩
  rw [heq', heq]

theorem keepsRows_disable : KeepsRows db (db.disableActive now updatedBy) := by
  refine ⟨fun k row hrow => ?_, List.prefix_refl _⟩
  have hrow' : (db.disableActive now updatedBy).configs[k]? =
      some (if row.isActive then row.disable now updatedBy else row) := by
    unfold Db.disableActive updateWhere
    rw [List.getElem?_map, hrow, Option.map_some]
  refine ⟨_, hrow', ?_⟩
  split <;> rfl

theorem keepsRows_insert {status : Status} :
    KeepsRows db (db.insertConfig now actor fields status) := by
  refine ⟨fun k row hrow => ⟨row, ?_, rfl⟩, List.prefix_append _ _⟩
  exact (List.getElem?_append_left (List.getElem?_eq_some_iff.mp hrow).1).trans hrow

/-! ### Calls -/

/-- A call of a sequence: what the ledger does, what stays and when it does not panic. -/
structure Follows (P : SecretPrims) (settings : Settings) (ledger : Ledger) (db : Db)
    (request : Request) (after : Db × Except AppError StorageConfig) : Prop where
  steps : ∃ ledger', ledger.Step request after.2 ledger' ∧ Holds P settings ledger' after.1
  rows : KeepsRows db after.1
  quiet : (∀ actor input, request = .saveConfig actor input → Cuts (trim input.accessKeyId)) →
    after.2 ≠ .error .panicked

theorem Holds.refused (h : Holds P settings ledger db) {request : Request} {e : AppError}
    (hquiet : (∀ actor input, request = .saveConfig actor input → Cuts (trim input.accessKeyId)) →
      e ≠ .panicked) : Follows P settings ledger db request (db, .error e) :=
  ⟨⟨ledger, .refused, h⟩, keepsRows_refl, fun hcuts he => hquiet hcuts (Except.error.inj he)⟩

theorem Holds.saveConfig (h : Holds P settings ledger db) (input : SaveStorageConfigInput) :
    Follows P settings ledger db (.saveConfig actor input)
      (saveConfig P settings m actor input db) := by
  unfold Storage.saveConfig
  split
  · rename_i e he
    refine h.refused fun hcuts => ?_
    rintro rfl
    exact sealConfig_ne_panicked (hcuts actor input rfl) he
  · rename_i fields hfields
    have hkeeps := sealConfig_keeps hfields
    split
    · exact h.refused fun _ h => (by cases h)
    · by_cases hactivate : input.activate = true
      · simp only [if_pos hactivate]
        have hafter : Holds P settings (ledger.append input.content true)
            ((db.disableActive m.now none).insertConfig m.now actor fields .active) :=
          @Holds.insert _ _ _ _ _ _ (h.disable m.now none) hkeeps true (fun _ => rfl) m.now actor
        refine ⟨⟨_, .saved ?_, ?_⟩, keepsRows_disable.trans keepsRows_insert,
          fun _ => reread_ne_panicked⟩
        · exact hafter.returned
        · rw [hactivate]
          exact hafter
      · simp only [if_neg hactivate]
        have hafter : Holds P settings (ledger.append input.content false)
            (db.insertConfig m.now actor fields .draft) :=
          h.insert hkeeps (fun hfalse => (by cases hfalse)) m.now actor
        refine ⟨⟨_, .saved ?_, ?_⟩, keepsRows_insert, fun _ => reread_ne_panicked⟩
        · exact hafter.returned
        · rw [Bool.not_eq_true] at hactivate
          rw [hactivate]
          exact hafter

theorem Holds.rollbackConfig (h : Holds P settings ledger db) (version : Int) :
    Follows P settings ledger db (.rollbackConfig actor version)
      (rollbackConfig P settings m actor version db) := by
  unfold Storage.rollbackConfig
  split
  · rename_i e he
    refine h.refused fun _ => ?_
    rintro rfl
    exact h.findVersion_ne_panicked he
  · rename_i fields hfields
    obtain ⟨k, content, rfl, hcontent, hkeeps⟩ := h.findVersion hfields
    split
    · exact h.refused fun _ h => (by cases h)
    · have hafter : Holds P settings (ledger.append content true)
          ((db.disableActive m.now (some actor)).insertConfig m.now actor fields .active) :=
        @Holds.insert _ _ _ _ _ _ (h.disable m.now (some actor)) hkeeps true (fun _ => rfl) m.now actor
      exact ⟨⟨_, .restored hcontent hafter.returned, hafter⟩,
        keepsRows_disable.trans keepsRows_insert, fun _ => reread_ne_panicked⟩

/-! ## Loads -/

theorem Holds.loads (h : Holds P settings ledger db) {k : Nat}
    (hcontent : ledger.contents[k]? = some content) :
    Loads (loadStorageConfigWithSecretById P settings (k + 1) db) content := by
  have hlt : k < db.configs.length := by
    rw [h.size]
    exact (List.getElem?_eq_some_iff.mp hcontent).1
  have hrow := List.getElem?_eq_getElem hlt
  have hid := (h.configs k _ hrow).1
  unfold loadStorageConfigWithSecretById
  cases hfound : db.configs.find? (·.id == (k + 1 : Int)) with
  | none =>
    have hnot := List.find?_eq_none.mp hfound _ (List.mem_of_getElem? hrow)
    exact absurd (beq_iff_eq.mpr hid) hnot
  | some row =>
    obtain ⟨j, hj⟩ := List.mem_iff_getElem?.mp (List.mem_of_find?_eq_some hfound)
    have hmatch : row.id = k + 1 := by
      have htest := List.find?_some hfound
      exact beq_iff_eq.mp htest
    obtain ⟨hid', _, _, kept, hkept, hkeeps⟩ := h.configs j row hj
    obtain rfl : j = k := by omega
    rw [hcontent] at hkept
    obtain rfl := Option.some.inj hkept
    refine ⟨storageConfigFromRow row, ?_, hkeeps.endpoint, hkeeps.region, hkeeps.bucket⟩
    dsimp only
    rw [hkeeps.secrets]
    rfl

theorem Holds.loadsActive (h : Holds P settings ledger db) {k : Nat} (hactive : ledger.active = some k)
    (hcontent : ledger.contents[k]? = some content) :
    Loads (loadActiveConfigWithSecret P settings db) content := by
  have hlt : k < db.configs.length := by
    rw [h.size]
    exact (List.getElem?_eq_some_iff.mp hcontent).1
  have hrow := List.getElem?_eq_getElem hlt
  unfold loadActiveConfigWithSecret
  cases hfound : db.activeConfig with
  | none =>
    have hin : db.configs[k] ∈ db.configs.filter ConfigRow.isActive :=
      List.mem_filter.mpr ⟨List.mem_of_getElem? hrow, (h.isActive_iff hrow).mpr hactive⟩
    unfold Db.activeConfig at hfound
    rw [← @mem_orderBy _ (descending (·.version) (·.id)), List.head?_eq_none_iff.mp hfound] at hin
    cases hin
  | some row =>
    obtain ⟨hmem, hrowActive⟩ := List.mem_filter.mp (mem_orderBy.mp (List.mem_of_mem_head? hfound))
    obtain ⟨j, hj⟩ := List.mem_iff_getElem?.mp hmem
    have hsame := (h.isActive_iff hj).mp hrowActive
    rw [hactive] at hsame
    obtain rfl := Option.some.inj hsame
    obtain ⟨_, _, _, kept, hkept, hkeeps⟩ := h.configs k row hj
    rw [hcontent] at hkept
    obtain rfl := Option.some.inj hkept
    refine ⟨storageConfigFromRow row, ?_, hkeeps.endpoint, hkeeps.region, hkeeps.bucket⟩
    dsimp only
    rw [hkeeps.secrets]
    rfl

theorem Holds.loadsNone (h : Holds P settings ledger db) (hactive : ledger.active = none) :
    loadActiveConfigWithSecret P settings db = .ok none := by
  have hnone : db.configs.filter ConfigRow.isActive = [] := by
    rw [List.filter_eq_nil_iff]
    intro row hrow hrowActive
    obtain ⟨k, hk⟩ := List.mem_iff_getElem?.mp hrow
    have hsome := (h.isActive_iff hk).mp hrowActive
    rw [hactive] at hsome
    cases hsome
  unfold loadActiveConfigWithSecret Db.activeConfig
  rw [hnone]
  rfl

theorem Holds.oneActive (h : Holds P settings ledger db) :
    (db.configs.filter (·.status == .active)).length ≤ 1 := by
  refine length_filter_le_one fun i j a b hi hj ha hb => ?_
  have hactive := (h.configs i a hi).2.2.1.mp (beq_iff_eq.mp ha)
  rw [(h.configs j b hj).2.2.1.mp (beq_iff_eq.mp hb)] at hactive
  exact (Option.some.inj hactive).symm

theorem Holds.numbered (h : Holds P settings ledger db) :
    db.configs.map (·.version) = (List.range db.configs.length).map fun k : Nat => (k : Int) + 1 := by
  apply List.ext_getElem?
  intro k
  by_cases hlt : k < db.configs.length
  · have hrow := List.getElem?_eq_getElem hlt
    rw [List.getElem?_map, List.getElem?_map, hrow, List.getElem?_range hlt, Option.map_some,
      Option.map_some, (h.configs k _ hrow).2.1]
  · rw [List.getElem?_eq_none (by simpa using hlt), List.getElem?_eq_none (by simpa using hlt)]

/-- What a run of calls leaves behind. -/
theorem handle_holds {tr : List Call} (hrun : Run (handle P settings) .empty tr db) :
    (∃ ledger, Replays tr ledger ∧ Holds P settings ledger db) ∧
      ∀ x ∈ tr, KeepsRows x.pre db ∧
        ((∀ actor input, x.event.2 = .saveConfig actor input → Cuts (trim input.accessKeyId)) →
          x.out ≠ .error .panicked) := by
  induction hrun with
  | start => exact ⟨⟨.empty, .start, holds_empty⟩, fun x hx => (by cases hx)⟩
  | @next tr db db' e out _ he ih =>
    obtain ⟨⟨ledger, hreplays, hholds⟩, hpast⟩ := ih
    have hfollows : Follows P settings ledger db e.2 (db', out) := by
      obtain ⟨m, request⟩ := e
      cases request with
      | saveConfig actor input => exact Option.some.inj he ▸ hholds.saveConfig input
      | rollbackConfig actor version => exact Option.some.inj he ▸ hholds.rollbackConfig version
    obtain ⟨ledger', hstep, hholds'⟩ := hfollows.steps
    refine ⟨⟨ledger', .next hreplays hstep, hholds'⟩, ?_⟩
    intro x hx
    rcases List.mem_append.mp hx with hold | hlast
    · exact ⟨(hpast x hold).1.trans hfollows.rows, (hpast x hold).2⟩
    · obtain rfl := List.mem_singleton.mp hlast
      exact ⟨hfollows.rows, hfollows.quiet⟩

end Steps

/-- After any sequence of calls at most one configuration is active, the versions are 1, 2, 3 and so
on, every load returns what the ledger says, the rows of every earlier state are there with the same
columns but for the status and the last update, and no call panics that cuts its key between
characters. -/
theorem storage_configs_are_versioned (P : SecretPrims) (settings : Settings) (tr : List Call) (db : Db)
    (hrun : Run (handle P settings) .empty tr db) :
    (db.configs.filter (·.status == .active)).length ≤ 1 ∧
    db.configs.map (·.version) = ((List.range db.configs.length).map fun k : Nat => (k : Int) + 1) ∧
    (∃ ledger, Replays tr ledger ∧ db.configs.length = ledger.contents.length ∧
      (∀ (k : Nat) content, ledger.contents[k]? = some content →
        Loads (loadStorageConfigWithSecretById P settings (k + 1) db) content) ∧
      match ledger.active with
      | none => loadActiveConfigWithSecret P settings db = .ok none
      | some k => ∃ content, ledger.contents[k]? = some content ∧
          Loads (loadActiveConfigWithSecret P settings db) content) ∧
    (∀ x ∈ tr, KeepsRows x.pre db) ∧
    ∀ x ∈ tr, (∀ actor input, x.event.2 = .saveConfig actor input → Cuts (trim input.accessKeyId)) →
      x.out ≠ .error .panicked := by
  obtain ⟨⟨ledger, hreplays, hholds⟩, hpast⟩ := handle_holds hrun
  refine ⟨hholds.oneActive, hholds.numbered, ⟨ledger, hreplays, hholds.size, ?_, ?_⟩,
    fun x hx => (hpast x hx).1, fun x hx => (hpast x hx).2⟩
  · intro k content hcontent
    exact hholds.loads hcontent
  · cases hactive : ledger.active with
    | none => exact hholds.loadsNone hactive
    | some k =>
      have hcontent := List.getElem?_eq_getElem (hholds.active k hactive)
      exact ⟨_, hcontent, hholds.loadsActive hactive hcontent⟩

def plainPrims : SecretPrims := ⟨Aead.plain, fun _ => .fill 32 0⟩

def production : Settings := ⟨"production", "a-master-key-of-the-server"⟩

def calm : Moment := ⟨"2026-07-01 00:00:00", .fill 12 0, .fill 12 0, false, false, false⟩

def given : SaveStorageConfigInput :=
  ⟨"https://oss-cn-beijing.aliyuncs.com", "oss-cn-beijing", "team-files", "LTAI5tQ2exampleKey",
    " secret ", true⟩

def leftBlank : SaveStorageConfigInput := { given with endpoint := "", region := " ", bucket := "" }

/-- A save by user 1, a draft by user 2 and the way back to version 1 by user 2. -/
def savedAndRestored : List (Moment × Request) :=
  [(calm, .saveConfig 1 given), (calm, .saveConfig 2 { leftBlank with activate := false }),
    (calm, .rollbackConfig 2 1)]

theorem saved_and_restored :
    ∃ tr db, exec (handle plainPrims production) .empty savedAndRestored = some (tr, db) ∧
      db.configs.map (·.status) = [.disabled, .draft, .active] ∧
      (db.configs.filter (·.status == .active)).length ≤ 1 ∧
      db.configs.map (·.version) = ((List.range db.configs.length).map fun k : Nat => (k : Int) + 1) := by
  obtain ⟨r, hr⟩ : ∃ r, exec (handle plainPrims production) .empty savedAndRestored = some r :=
    ⟨_, rfl⟩
  have hstatuses : (exec (handle plainPrims production) .empty savedAndRestored).map
      (fun r => r.2.configs.map (·.status)) = some [.disabled, .draft, .active] := by
    decide +kernel
  rw [hr] at hstatuses
  have hall := storage_configs_are_versioned plainPrims production r.1 r.2 (run_of_exec hr)
  exact ⟨r.1, r.2, hr, Option.some.inj hstatuses, hall.1, hall.2.1⟩

/-- A blank endpoint is not what a load returns; going back to a version changes who updated an earlier
row last; and a key is cut inside a character. -/
theorem storage_configs_differ :
    (∃ tr db config secrets, exec (handle plainPrims production) .empty
        [(calm, .saveConfig 1 leftBlank)] = some (tr, db) ∧
      loadActiveConfigWithSecret plainPrims production db = .ok (some (config, secrets)) ∧
      config.endpoint ≠ trim leftBlank.endpoint) ∧
    (∃ tr db, exec (handle plainPrims production) .empty savedAndRestored = some (tr, db) ∧
      (tr.map fun x => (x.pre.configs[0]?).map (·.updatedByUserId)) = [none, some 1, some 1] ∧
      (db.configs[0]?).map (·.updatedByUserId) = some 2) ∧
    (saveConfig plainPrims production calm 1 { given with accessKeyId := "测试密钥" } .empty).2 =
      .error .panicked := by
  refine ⟨?_, ?_, by decide +kernel⟩
  · obtain ⟨r, hr⟩ : ∃ r, exec (handle plainPrims production) .empty
        [(calm, .saveConfig 1 leftBlank)] = some r := ⟨_, rfl⟩
    have hloaded : (exec (handle plainPrims production) .empty [(calm, .saveConfig 1 leftBlank)]).map
        (fun r => ((loadActiveConfigWithSecret plainPrims production r.2).toOption.join).map
          (·.1.endpoint)) = some (some defaultAliyunOssEndpoint) := by
      decide +kernel
    rw [hr] at hloaded
    have hsome := Option.some.inj hloaded
    obtain ⟨⟨config, secrets⟩, hconfig, hendpoint⟩ := Option.map_eq_some_iff.mp hsome
    refine ⟨r.1, r.2, config, secrets, hr, ?_, ?_⟩
    · cases hload : loadActiveConfigWithSecret plainPrims production r.2 with
      | error e =>
        rw [hload] at hconfig
        cases hconfig
      | ok loaded =>
        rw [hload] at hconfig
        exact congrArg Except.ok hconfig
    · change config.endpoint = defaultAliyunOssEndpoint at hendpoint
      rw [hendpoint]
      decide
  · obtain ⟨r, hr⟩ : ∃ r, exec (handle plainPrims production) .empty savedAndRestored = some r :=
      ⟨_, rfl⟩
    have hrows : (exec (handle plainPrims production) .empty savedAndRestored).map
        (fun r => (r.1.map fun x => (x.pre.configs[0]?).map (·.updatedByUserId),
          (r.2.configs[0]?).map (·.updatedByUserId))) =
          some ([none, some 1, some 1], some 2) := by
      decide +kernel
    rw [hr] at hrows
    obtain ⟨hbefore, hafter⟩ := Prod.mk.inj (Option.some.inj hrows)
    exact ⟨r.1, r.2, hr, hbefore, hafter⟩

end Storage
end Yuance
