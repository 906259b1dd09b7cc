import Yuance.Devices.FailedSessions
import Yuance.Devices.SessionCalls

/-!
# Yuance.Devices.IssuedSessions

What an exchange and a rotation that return credentials have found, and the tables they leave.

* `ExchangeYields`: the credentials of an exchange that was made before, or new ones.
* `RotationYields`: the same of a rotation.
-/

namespace Yuance
namespace Devices
namespace Sessions

open Lib Platform

/-! ## New rows -/

namespace Store

variable (s : Store)

theorem withFamily_ids (row : FamilyRow) (h : row.id ∉ s.families.map (·.id)) :
    ((s.families ++ [row]).map (·.id)).Nodup := by
  rw [List.map_append]
  exact List.Nodup.append s.familyIds (List.nodup_singleton _) (List.disjoint_singleton.mpr h)

def withFamily (row : FamilyRow) (h : row.id ∉ s.families.map (·.id)) : Store :=
  { s with families := s.families ++ [row], familyIds := s.withFamily_ids row h }

def withSession (row : SessionRow) : Store := { s with sessions := s.sessions ++ [row] }

def withCredential (row : CredentialRow) : Store := { s with credentials := s.credentials ++ [row] }

def withRotation (row : RotationRow) : Store := { s with rotations := s.rotations ++ [row] }

/-- What the constraints ask of a new session. -/
structure FreshSession (row : SessionRow) : Prop where
  accessTokenHash : ∀ a ∈ s.sessions, a.accessTokenHash ≠ row.accessTokenHash
  id : ∀ a ∈ s.sessions, a.id ≠ row.id

structure FreshCredential (row : CredentialRow) : Prop where
  refreshTokenHash : ∀ c ∈ s.credentials, c.refreshTokenHash ≠ row.refreshTokenHash
  active : ∀ c ∈ s.credentials, c.familyId = row.familyId → c.status ≠ .active

variable {s}

theorem insertFamily_ok {row : FamilyRow} (h : (s.insertFamily row).2 = .ok ()) :
    (∀ f ∈ s.families, f.authorizationId ≠ row.authorizationId) ∧
      ∃ hid, (s.insertFamily row).1 = s.withFamily row hid := by
  unfold insertFamily at h ⊢
  split at h
  · cases h
  · rename_i hid
    split at h
    · cases h
    · rename_i hnot
      rw [dif_neg hid, if_neg hnot]
      refine ⟨fun f hf heq => hnot (.inl ?_), hid, rfl⟩
      exact List.any_eq_true.mpr ⟨f, hf, beq_iff_eq.mpr heq⟩

theorem insertSession_ok {row : SessionRow} (h : (s.insertSession row).2 = .ok ()) :
    s.FreshSession row ∧ (s.insertSession row).1 = s.withSession row := by
  unfold insertSession at h ⊢
  split at h
  · cases h
  · rename_i hnot
    rw [if_neg hnot]
    have hnone := List.any_eq_false.mp (eq_false_of_ne_true hnot)
    refine ⟨⟨fun a ha heq => hnone a ha ?_, fun a ha heq => hnone a ha ?_⟩, rfl⟩
    · rw [beq_iff_eq.mpr heq, Bool.or_true, Bool.true_or]
    · rw [beq_iff_eq.mpr heq, Bool.true_or, Bool.true_or]

theorem insertCredential_ok {row : CredentialRow} (h : (s.insertCredential row).2 = .ok ()) :
    s.FreshCredential row ∧ (s.insertCredential row).1 = s.withCredential row := by
  unfold insertCredential at h ⊢
  split at h
  · cases h
  · rename_i hnot
    rw [if_neg hnot]
    have hnone := List.any_eq_false.mp (eq_false_of_ne_true hnot)
    refine ⟨⟨fun c hc heq => hnone c hc ?_, fun c hc hfamily hactive => hnone c hc ?_⟩, rfl⟩
    · rw [beq_iff_eq.mpr heq, Bool.or_true, Bool.true_or]
    · rw [beq_iff_eq.mpr hfamily, beq_iff_eq.mpr hactive, Bool.or_true, Bool.true_and,
        Bool.or_true]

theorem insertRotation_ok {row : RotationRow} (h : (s.insertRotation row).2 = .ok ()) :
    (∀ r ∈ s.rotations, r.transactionId ≠ row.transactionId) ∧
      (s.insertRotation row).1 = s.withRotation row := by
  unfold insertRotation at h ⊢
  split at h
  · cases h
  · rename_i hnot
    rw [if_neg hnot]
    have hnone := List.any_eq_false.mp (eq_false_of_ne_true hnot)
    refine ⟨fun r hr heq => hnone r hr ?_, rfl⟩
    rw [beq_iff_eq.mpr heq, Bool.or_true, Bool.true_or]

/-- The rows of devices keep their keys, and a new one may stand behind them. -/
theorem upsertDeviceRow_ok {row : DeviceRow} (h : (s.upsertDeviceRow row).2 = .ok ()) :
    ∃ devices, (s.upsertDeviceRow row).1 = { s with devices } ∧
      ((∃ f : DeviceRow → DeviceRow, (∀ d, (f d).id = d.id ∧ (f d).status = d.status ∧
          (f d).authorizationVersion = d.authorizationVersion) ∧ devices = s.devices.map f) ∨
        devices = s.devices ++ [row]) := by
  unfold upsertDeviceRow at h ⊢
  split at h
  · rename_i hany
    rw [if_pos hany]
    refine ⟨_, rfl, .inl ⟨_, fun d => ?_, rfl⟩⟩
    split <;> exact ⟨rfl, rfl, rfl⟩
  · rename_i hnone
    split at h
    · cases h
    · rename_i hid
      rw [if_neg hnone, if_neg hid]
      exact ⟨_, rfl, .inr rfl⟩

end Store

section Rows

variable (C : Crates) (drawn : Drawn) (policy : DeviceSessionPolicy) (now : Int)

def familyOf (row : AuthorizationRow) (deviceId : String) (userId : Int) : FamilyRow :=
  { id := drawn.familyId, authorizationId := row.id, deviceId, userId
    serverInstanceId := policy.serverInstanceId, status := .active, authorizationVersion := 1
    refreshSlidingExpiresAt := timestamp (now + seconds policy.refreshSlidingTtlSeconds)
    refreshAbsoluteExpiresAt := timestamp (now + seconds policy.refreshAbsoluteTtlSeconds)
    revokedAt := none, revokeReason := "", updatedAt := timestamp now }

def sessionOf (credentials : Credentials) : SessionRow :=
  { id := drawn.sessionId, accessTokenHash := hashDeviceToken C credentials.accessToken
    familyId := credentials.familyId, deviceId := credentials.deviceId
    userId := credentials.userId, serverInstanceId := policy.serverInstanceId
    generation := credentials.generation, issuer := deviceAccessIssuer
    audience := deviceAccessAudience, status := .active
    authorizationVersion := credentials.authorizationVersion
    expiresAt := timestamp credentials.accessExpiresAt, lastSeenAt := timestamp now
    revokedAt := none, revokeReason := "", updatedAt := timestamp now }

def credentialOf (credentials : Credentials) : CredentialRow :=
  { id := drawn.credentialId, refreshTokenHash := hashDeviceToken C credentials.refreshToken
    familyId := credentials.familyId, deviceId := credentials.deviceId
    userId := credentials.userId, serverInstanceId := policy.serverInstanceId
    generation := credentials.generation, issuer := deviceAccessIssuer
    audience := deviceRefreshAudience, status := .active
    expiresAt := timestamp credentials.refreshExpiresAt, consumedAt := none, revokedAt := none
    revokeReason := "", updatedAt := timestamp now }

def rotationOf (row : RefreshRow) (sourceGeneration : Int)
    (transactionId sourceRefreshTokenHash ciphertext : String) : RotationRow :=
  { id := drawn.rotationId, familyId := row.familyId, deviceId := row.deviceId
    userId := row.userId, serverInstanceId := policy.serverInstanceId, sourceGeneration
    sourceRefreshTokenHash, transactionId, status := .completed, resultCiphertext := ciphertext
    resultExpiresAt := timestamp (now + seconds policy.idempotencyTtlSeconds)
    updatedAt := timestamp now }

end Rows

/-! ## The rotation -/

section Rotation

variable {C : Crates} {drawn : Drawn} {masterKey : String} {policy : DeviceSessionPolicy}
  {now : Int}

/-- The rows that are joined, and what is read of them. -/
structure RefreshRow.Joins (row : RefreshRow) (s : Store) (refreshTokenHash : String)
    (c : CredentialRow) (f : FamilyRow) (d : DeviceRow) (u : UserRow) : Prop where
  credential : s.credentials.find? (·.refreshTokenHash == refreshTokenHash) = some c
  family : s.families.find? (·.id == c.familyId) = some f
  device : s.devices.find? (·.id == c.deviceId) = some d
  user : s.users.find? (·.id == c.userId) = some u
  familyId : row.familyId = c.familyId
  deviceId : row.deviceId = c.deviceId
  userId : row.userId = c.userId
  serverInstanceId : row.serverInstanceId = c.serverInstanceId
  generation : row.generation = c.generation
  credentialStatus : row.credentialStatus = c.status
  familyStatus : row.familyStatus = f.status
  familyVersion : row.familyVersion = f.authorizationVersion
  deviceStatus : row.deviceStatus = d.status
  deviceVersion : row.deviceVersion = d.authorizationVersion
  userStatus : row.userStatus = u.status

theorem Store.findRefresh_joins {s : Store} {refreshTokenHash : String} {row : RefreshRow}
    (h : s.findRefresh refreshTokenHash = some row) :
    ∃ c f d u, row.Joins s refreshTokenHash c f d u := by
  unfold Store.findRefresh at h
  obtain ⟨c, hc, h⟩ := Option.bind_eq_some_iff.mp h
  obtain ⟨f, hf, h⟩ := Option.bind_eq_some_iff.mp h
  obtain ⟨d, hd, h⟩ := Option.bind_eq_some_iff.mp h
  obtain ⟨u, hu, h⟩ := Option.bind_eq_some_iff.mp h
  cases h
  exact ⟨c, f, d, u, hc, hf, hd, hu, rfl, rfl, rfl, rfl, rfl, rfl, rfl, rfl, rfl, rfl, rfl⟩

structure RefreshRow.Usable (row : RefreshRow) (policy : DeviceSessionPolicy)
    (sourceGeneration : Int) (requestedDeviceId : String) : Prop where
  deviceId : row.deviceId = requestedDeviceId
  serverInstanceId : row.serverInstanceId = policy.serverInstanceId
  generation : row.generation = sourceGeneration
  userStatus : row.userStatus = "active"
  deviceStatus : row.deviceStatus = .active
  familyStatus : row.familyStatus = .active
  familyVersion : row.familyVersion = row.deviceVersion

theorem requireUsable_eq_ok {row : RefreshRow} {sourceGeneration : Int}
    {requestedDeviceId : String} :
    requireUsable policy row sourceGeneration requestedDeviceId = .ok () ↔
      row.Usable policy sourceGeneration requestedDeviceId := by
  unfold requireUsable
  constructor
  · intro h
    obtain ⟨_, hscope, h⟩ := bind_eq_ok.mp h
    obtain ⟨_, huser, h⟩ := bind_eq_ok.mp h
    obtain ⟨_, hdevice, h⟩ := bind_eq_ok.mp h
    obtain ⟨_, hfamily, hversion⟩ := bind_eq_ok.mp h
    have hscope := rejectIf_eq_ok.mp hscope
    rw [not_or, not_or, not_not, not_not, not_not] at hscope
    obtain ⟨hdeviceId, hserver, hgeneration⟩ := hscope
    exact ⟨hdeviceId, hserver, hgeneration, not_not.mp (rejectIf_eq_ok.mp huser),
      not_not.mp (rejectIf_eq_ok.mp hdevice), not_not.mp (rejectIf_eq_ok.mp hfamily),
      not_not.mp (rejectIf_eq_ok.mp hversion)⟩
  · intro h
    rw [rejectIf_neg, rejectIf_neg (not_not.mpr h.userStatus),
      rejectIf_neg (not_not.mpr h.deviceStatus), rejectIf_neg (not_not.mpr h.familyStatus),
      rejectIf_neg (not_not.mpr h.familyVersion)]
    · rfl
    · rw [not_or, not_or, not_not, not_not, not_not]
      exact ⟨h.deviceId, h.serverInstanceId, h.generation⟩

/-- The credential rotated and the sessions of its generation revoked. -/
def Store.ended (s : Store) (familyId : String) (sourceGeneration : Int)
    (sourceRefreshTokenHash : String) (now : Stamp) : Store :=
  (s.rotateCredential sourceRefreshTokenHash now).revokeSessions
    (fun a => a.familyId == familyId && a.generation == sourceGeneration) now "refresh_rotated"

/-- The tables behind a rotation. -/
def Store.rotated (s : Store) (C : Crates) (drawn : Drawn) (policy : DeviceSessionPolicy)
    (now : Int) (row : RefreshRow) (sourceGeneration : Int)
    (transactionId sourceRefreshTokenHash ciphertext : String)
    (credentials : Credentials) : Store :=
  ((((s.ended row.familyId sourceGeneration sourceRefreshTokenHash (timestamp now)).withSession
    (sessionOf C drawn policy now credentials)).withCredential
    (credentialOf C drawn policy now credentials)).slideFamily row.familyId
    (timestamp credentials.refreshExpiresAt) (timestamp now)).withRotation
    (rotationOf drawn policy now row sourceGeneration transactionId
      sourceRefreshTokenHash ciphertext)

variable (C drawn masterKey policy now) in
/-- A rotation has returned the credentials. -/
inductive RotationYields (s : Store) (sourceRefreshTokenHash : String) (sourceGeneration : Int)
    (transactionId requestedDeviceId : String) : Store → Credentials → Prop where
  /-- Those of the rotation that was made before. -/
  | recovered {row : RefreshRow} {rotation : RotationRow} {credentials : Credentials}
      (hrow : s.findRefresh sourceRefreshTokenHash = some row)
      (husable : requireUsable policy row sourceGeneration requestedDeviceId = .ok ())
      (hrotation : (s.rotations.find? fun r =>
        r.familyId == row.familyId && r.sourceGeneration == sourceGeneration) = some rotation)
      (htransaction : rotation.transactionId = transactionId)
      (hopen : openCredentials C masterKey rotation.resultCiphertext
        (refreshRotationAad row.familyId row.deviceId policy.serverInstanceId sourceGeneration
          transactionId sourceRefreshTokenHash) = some credentials) :
      RotationYields s sourceRefreshTokenHash sourceGeneration transactionId requestedDeviceId s
        credentials
  /-- New ones. -/
  | issued {row : RefreshRow} {refreshAbsoluteExpiresAt : Int} {credentials : Credentials}
      {ciphertext : String}
      (hrow : s.findRefresh sourceRefreshTokenHash = some row)
      (husable : requireUsable policy row sourceGeneration requestedDeviceId = .ok ())
      (hnone : (s.rotations.find? fun r =>
        r.familyId == row.familyId && r.sourceGeneration == sourceGeneration) = none)
      (hactive : row.credentialStatus = .active)
      (hcredentials : credentials =
        nextCredentials drawn policy now row sourceGeneration refreshAbsoluteExpiresAt)
      (hseal : sealCredentials C drawn.nonce masterKey credentials
        (refreshRotationAad row.familyId row.deviceId policy.serverInstanceId sourceGeneration
          transactionId sourceRefreshTokenHash) = .ok ciphertext)
      (hsession : (s.ended row.familyId sourceGeneration sourceRefreshTokenHash
        (timestamp now)).FreshSession (sessionOf C drawn policy now credentials))
      (hcredential : (s.ended row.familyId sourceGeneration sourceRefreshTokenHash
        (timestamp now)).FreshCredential (credentialOf C drawn policy now credentials)) :
      RotationYields s sourceRefreshTokenHash sourceGeneration transactionId requestedDeviceId
        (s.rotated C drawn policy now row sourceGeneration transactionId sourceRefreshTokenHash
          ciphertext credentials) credentials

variable {s : Store} {row : RefreshRow} {sourceGeneration : Int}
  {transactionId sourceRefreshTokenHash requestedDeviceId : String}

theorem insertSessionOf_bind {α : Type} {credentials : Credentials} {k : Unit → Transaction α}
    {R : Store → α → Prop}
    (hk : s.FreshSession (sessionOf C drawn policy now credentials) →
      Concludes (k ()) (s.withSession (sessionOf C drawn policy now credentials)) R
        fun _ _ => True) :
    Concludes (insertSessionOf C drawn policy now credentials >>= k) s R fun _ _ => True := by
  refine Concludes.statement_bind trivial (fun _ _ => trivial) ?_
  intro _ hok
  obtain ⟨hfresh, hrow⟩ := Store.insertSession_ok hok
  rw [hrow]
  exact hk hfresh

theorem insertCredentialOf_bind {α : Type} {credentials : Credentials} {k : Unit → Transaction α}
    {R : Store → α → Prop}
    (hk : s.FreshCredential (credentialOf C drawn policy now credentials) →
      Concludes (k ()) (s.withCredential (credentialOf C drawn policy now credentials)) R
        fun _ _ => True) :
    Concludes (insertCredentialOf C drawn policy now credentials >>= k) s R fun _ _ => True := by
  refine Concludes.statement_bind trivial (fun _ _ => trivial) ?_
  intro _ hok
  obtain ⟨hfresh, hrow⟩ := Store.insertCredential_ok hok
  rw [hrow]
  exact hk hfresh

theorem rotateFresh_yields (hrow : s.findRefresh sourceRefreshTokenHash = some row)
    (husable : requireUsable policy row sourceGeneration requestedDeviceId = .ok ())
    (hnone : (s.rotations.find? fun r =>
      r.familyId == row.familyId && r.sourceGeneration == sourceGeneration) = none) :
    Concludes (rotateFresh C drawn masterKey policy now row sourceGeneration transactionId
      sourceRefreshTokenHash) s
      (RotationYields C drawn masterKey policy now s sourceRefreshTokenHash sourceGeneration
        transactionId requestedDeviceId) fun _ _ => True := by
  unfold rotateFresh
  refine Concludes.rejectIf_bind (fun _ => trivial) fun hactive => ?_
  refine Concludes.ofExcept_bind (fun _ _ => trivial) fun _ _ => ?_
  refine Concludes.ofExcept_bind (fun _ _ => trivial) fun refreshAbsoluteExpiresAt _ => ?_
  split
  · exact Concludes.execute_bind trivial (Concludes.fail trivial)
  · refine Concludes.select_bind trivial (Concludes.rejectIf_bind (fun _ => trivial) fun _ => ?_)
    unfold issueRotation
    refine Concludes.ofExcept_bind (fun _ _ => trivial) fun ciphertext hseal => ?_
    refine update_bind trivial (Concludes.rejectIf_bind (fun _ => trivial) fun _ => ?_)
    refine Concludes.execute_bind trivial ?_
    refine insertSessionOf_bind fun hsession => insertCredentialOf_bind fun hcredential => ?_
    refine Concludes.execute_bind trivial ?_
    refine Concludes.statement_bind trivial (fun _ _ => trivial) fun _ hok => ?_
    rw [(Store.insertRotation_ok hok).2]
    exact Concludes.done
      (.issued hrow husable hnone (not_not.mp hactive) rfl hseal hsession
        ⟨hcredential.refreshTokenHash, hcredential.active⟩)

theorem revokeRotated_fails {reason : String} {erases : Bool} {error : DeviceSessionError} :
    Concludes (revokeRotated now row sourceGeneration reason erases error) s (fun _ _ => False)
      fun _ _ => True := by
  unfold revokeRotated
  refine Concludes.bind (Q := fun _ _ => True) ⟨fun _ => trivial, fun _ => trivial⟩ fun _ _ _ => ?_
  exact Concludes.execute_bind trivial (Concludes.fail trivial)

theorem rotateRefreshInTransaction_yields :
    Concludes (rotateRefreshInTransaction C drawn masterKey policy now sourceRefreshTokenHash
      sourceGeneration transactionId requestedDeviceId) s
      (RotationYields C drawn masterKey policy now s sourceRefreshTokenHash sourceGeneration
        transactionId requestedDeviceId) fun _ _ => True := by
  unfold rotateRefreshInTransaction
  refine Concludes.select_bind trivial (Concludes.okOr_bind (fun _ => trivial) fun row hrow => ?_)
  refine Concludes.ofExcept_bind (fun _ _ => trivial) fun _ husable => ?_
  refine Concludes.select_bind trivial ?_
  split
  · rename_i rotation hrotation
    unfold answerRotated
    split
    · exact revokeRotated_fails.mono (fun _ _ h => h.elim) fun _ _ h => h
    · rename_i htransaction
      refine Concludes.ofExcept_bind (fun _ _ => trivial) fun _ _ => ?_
      split
      · exact revokeRotated_fails.mono (fun _ _ h => h.elim) fun _ _ h => h
      · split
        · rename_i hopen
          exact Concludes.done (.recovered hrow husable hrotation (not_not.mp htransaction) hopen)
        · exact revokeRotated_fails.mono (fun _ _ h => h.elim) fun _ _ h => h
  · rename_i hnone
    exact rotateFresh_yields hrow husable hnone

end Rotation

/-! ## The exchange -/

section Exchange

variable {C : Crates} {drawn : Drawn} {masterKey : String} {policy : DeviceSessionPolicy}
  {now : Int}

/-- The rows of devices behind an exchange: they keep their keys, and a new one may stand behind
them. -/
inductive DevicesSeen (devices : List DeviceRow) (drawn : Drawn) : List DeviceRow → Prop where
  | known {f : DeviceRow → DeviceRow} (hf : ∀ d, (f d).id = d.id ∧ (f d).status = d.status ∧
      (f d).authorizationVersion = d.authorizationVersion) :
      DevicesSeen devices drawn (devices.map f)
  | registered {row : DeviceRow} (hid : row.id = drawn.deviceId) (hstatus : row.status = .active)
      (hversion : row.authorizationVersion = 1) : DevicesSeen devices drawn (devices ++ [row])

/-- The tables behind an exchange, from those behind its poll gate. -/
def Store.exchanged (s : Store) (C : Crates) (drawn : Drawn) (policy : DeviceSessionPolicy)
    (now : Int) (devices : List DeviceRow) (row : AuthorizationRow) (userId : Int)
    (transactionId ciphertext : String) (credentials : Credentials)
    (hid : drawn.familyId ∉ s.families.map (·.id)) : Store :=
  (((({ s with devices } : Store).withFamily (familyOf drawn policy now row credentials.deviceId
    userId) hid).withSession (sessionOf C drawn policy now credentials)).withCredential
    (credentialOf C drawn policy now credentials)).consumeAuthorization row.id transactionId
    ciphertext (timestamp (now + seconds policy.idempotencyTtlSeconds)) (timestamp now)

variable (C drawn masterKey policy now) in
/-- An exchange has returned the credentials. -/
inductive ExchangeYields (s : Store) (deviceCodeHash codeVerifier transactionId : String) :
    Store → Credentials → Prop where
  /-- Those of the exchange that was made before. -/
  | recovered {row : AuthorizationRow} {credentials : Credentials}
      (hrow : s.findAuthorization deviceCodeHash policy.serverInstanceId = some row)
      (hpkce : pkceMatches C codeVerifier row.codeChallenge = true)
      (hconsumed : row.status = .consumed)
      (hrecover : recoverExchange C masterKey policy now row transactionId deviceCodeHash =
        .ok credentials) :
      ExchangeYields s deviceCodeHash codeVerifier transactionId s credentials
  /-- New ones. -/
  | issued {row : AuthorizationRow} {userId : Int} {gate : Store} {devices : List DeviceRow}
      {device : DeviceRow} {deviceId ciphertext : String} {credentials : Credentials}
      (hrow : s.findAuthorization deviceCodeHash policy.serverInstanceId = some row)
      (hpkce : pkceMatches C codeVerifier row.codeChallenge = true)
      (happroved : row.status = .approved)
      (hgate : Gated s row now gate)
      (hdevices : DevicesSeen gate.devices drawn devices)
      (hid : drawn.familyId ∉ gate.families.map (·.id))
      (hunused : ∀ f ∈ gate.families, f.authorizationId ≠ row.id)
      (hdevice : devices.find? (·.id == deviceId) = some device)
      (hcredentials : credentials =
        initialCredentials drawn policy now deviceId userId device.authorizationVersion)
      (hseal : sealCredentials C drawn.nonce masterKey credentials
        (exchangeResultAad row.id policy.serverInstanceId transactionId deviceCodeHash) =
          .ok ciphertext)
      (hsession : gate.FreshSession (sessionOf C drawn policy now credentials))
      (hcredential : gate.FreshCredential (credentialOf C drawn policy now credentials)) :
      ExchangeYields s deviceCodeHash codeVerifier transactionId
        (gate.exchanged C drawn policy now devices row userId transactionId ciphertext
          credentials hid) credentials

variable {s gate : Store} {row : AuthorizationRow} {userId : Int}
  {transactionId deviceCodeHash codeVerifier : String}

theorem upsertDevice_yields :
    Concludes (upsertDevice drawn policy now row userId) gate
      (fun s' _ => ∃ devices, DevicesSeen gate.devices drawn devices ∧ s' = { gate with devices })
      fun _ _ => True := by
  unfold upsertDevice
  refine Concludes.statement_bind trivial (fun _ _ => trivial) fun _ hok => ?_
  obtain ⟨devices, hrow, hdevices⟩ := Store.upsertDeviceRow_ok hok
  rw [hrow]
  refine Concludes.select_bind trivial (Concludes.okOr_bind (fun _ => trivial) fun device _ => ?_)
  refine Concludes.rejectIf_bind (fun _ => trivial) fun _ => Concludes.done ⟨devices, ?_, rfl⟩
  rcases hdevices with ⟨f, hf, rfl⟩ | rfl
  · exact .known hf
  · exact .registered rfl rfl rfl

theorem issueCredentials_yields
    (hrow : s.findAuthorization deviceCodeHash policy.serverInstanceId = some row)
    (hpkce : pkceMatches C codeVerifier row.codeChallenge = true)
    (happroved : row.status = .approved) (hgate : Gated s row now gate) :
    Concludes
      (issueCredentials C drawn masterKey policy now row userId transactionId deviceCodeHash)
      gate (ExchangeYields C drawn masterKey policy now s deviceCodeHash codeVerifier transactionId)
      fun _ _ => True := by
  unfold issueCredentials
  refine Concludes.bind upsertDevice_yields ?_
  rintro _ deviceId ⟨devices, hdevices, rfl⟩
  refine Concludes.statement_bind trivial (fun _ _ => trivial) fun _ hok => ?_
  obtain ⟨hunused, hid, hfamily⟩ := Store.insertFamily_ok hok
  rw [hfamily]
  refine Concludes.select_bind trivial ?_
  refine Concludes.okOr_bind (fun _ => trivial) fun device hdevice => ?_
  refine insertSessionOf_bind fun hsession => insertCredentialOf_bind fun hcredential => ?_
  refine Concludes.ofExcept_bind (fun _ _ => trivial) fun ciphertext hseal => ?_
  refine update_bind trivial (Concludes.rejectIf_bind (fun _ => trivial) fun _ => ?_)
  exact Concludes.done (.issued hrow hpkce happroved hgate hdevices hid hunused hdevice rfl hseal
    ⟨hsession.accessTokenHash, hsession.id⟩ ⟨hcredential.refreshTokenHash, hcredential.active⟩)

theorem approved_of_requireOpen {status : AuthorizationStatus} (hopen : requireOpen status = .ok ())
    (hpending : status ≠ .pending) : status = .approved := by
  cases status with
  | approved => rfl
  | pending => exact absurd rfl hpending
  | denied => cases hopen
  | expired => cases hopen
  | consumed => cases hopen

theorem exchangeInTransaction_yields :
    Concludes (exchangeInTransaction C drawn masterKey policy now deviceCodeHash codeVerifier
      transactionId) s
      (ExchangeYields C drawn masterKey policy now s deviceCodeHash codeVerifier transactionId)
      fun _ _ => True := by
  unfold exchangeInTransaction
  refine Concludes.select_bind trivial (Concludes.okOr_bind (fun _ => trivial) fun row hrow => ?_)
  refine Concludes.rejectIf_bind (fun _ => trivial) fun hpkce => ?_
  have hpkce := eq_true_of_ne_false hpkce
  split
  · rename_i hconsumed
    exact Concludes.ofExcept (fun _ _ => trivial) fun _ hrecover =>
      .recovered hrow hpkce hconsumed hrecover
  · unfold exchangeOpen
    refine Concludes.ofExcept_bind (fun _ _ => trivial) fun expiresAt _ => ?_
    split
    · exact Concludes.execute_bind trivial (Concludes.fail trivial)
    · refine Concludes.ofExcept_bind (fun _ _ => trivial) fun _ hopen => ?_
      refine Concludes.bind
        (enforcePollGate_concludes.mono (fun _ _ h => h) fun _ _ _ => trivial) ?_
      intro gate _ hgate
      refine Concludes.rejectIf_bind (fun _ => trivial) fun hpending => ?_
      refine Concludes.okOr_bind (fun _ => trivial) fun userId _ => ?_
      have happroved := approved_of_requireOpen hopen hpending
      refine Concludes.bind (Q := fun s' _ => s' = gate) ?_ ?_
      · unfold ensureActiveUser
        exact Concludes.select_bind trivial (Concludes.rejectIf (fun _ => trivial) fun _ => rfl)
      · rintro _ _ rfl
        exact issueCredentials_yields hrow hpkce happroved hgate

end Exchange

/-! ## The calls -/

section Calls

variable {C : Crates} {drawn : Drawn} {masterKey : String} {policy : DeviceSessionPolicy}
  {now : Int} {s : Store}

/-- What is returned is committed. -/
theorem inTransaction_yields {p : Transaction Credentials} {Q : Store → Credentials → Prop}
    (hp : Concludes p s Q fun _ _ => True) : Concludes (inTransaction p) s Q fun _ _ => True :=
  Concludes.atomically trivial (fun _ _ => trivial)
    (hp.mono (fun _ _ h => h) fun _ _ _ _ => trivial)

theorem exchangeBehindReading_yields {input : ExchangeAuthorizationInput} :
    Concludes (exchangeBehindReading C masterKey policy now drawn input) s
      (fun s' credentials => validatePolicy policy = .ok () ∧ ∃ transactionId,
        normalizeTransactionIdDomain C input.exchangeTransactionId = .ok transactionId ∧
          ExchangeYields C drawn masterKey policy now s (hashDeviceToken C input.deviceCode)
            input.codeVerifier transactionId s' credentials)
      fun s' _ => ExchangeLeaves s (hashDeviceToken C input.deviceCode) policy.serverInstanceId now
        s' := by
  unfold exchangeBehindReading
  refine Concludes.ofExcept_bind (fun _ _ => .nothing) fun _ hpolicy => ?_
  refine Concludes.ofExcept_bind (fun _ _ => .nothing) fun _ _ => ?_
  refine Concludes.ofExcept_bind (fun _ _ => .nothing) fun transactionId htransaction => ?_
  refine Concludes.ofExcept_bind (fun _ _ => .nothing) fun deviceCodeHash hhash => ?_
  obtain ⟨_, _, hhash⟩ := bind_eq_ok.mp hhash
  cases hhash
  refine ⟨fun hrun => ⟨hpolicy, transactionId, htransaction, ?_⟩, fun hrun => ?_⟩
  · exact (inTransaction_yields exchangeInTransaction_yields).ok hrun
  · exact (inTransaction_concludes .nothing exchangeInTransaction_concludes).error hrun

theorem rotateRefreshToken_yields {input : RotateRefreshInput} :
    Concludes (rotateRefreshToken C drawn masterKey policy now input) s
      (fun s' credentials => ∃ transactionId,
        normalizeTransactionIdDomain C input.transactionId = .ok transactionId ∧
          RotationYields C drawn masterKey policy now s (hashDeviceToken C input.refreshToken)
            input.generation transactionId input.deviceId s' credentials)
      fun s' _ => RotationLeaves s (hashDeviceToken C input.refreshToken) input.generation now
        s' := by
  have hyields : Concludes (rotateRefreshToken C drawn masterKey policy now input) s
      (fun s' credentials => ∃ transactionId,
        normalizeTransactionIdDomain C input.transactionId = .ok transactionId ∧
          RotationYields C drawn masterKey policy now s (hashDeviceToken C input.refreshToken)
            input.generation transactionId input.deviceId s' credentials) fun _ _ => True := by
    unfold rotateRefreshToken
    refine Concludes.ofExcept_bind (fun _ _ => trivial) fun _ _ => ?_
    refine Concludes.rejectIf_bind (fun _ => trivial) fun _ => ?_
    refine Concludes.ofExcept_bind (fun _ _ => trivial) fun transactionId htransaction => ?_
    refine Concludes.rejectIf_bind (fun _ => trivial) fun _ => ?_
    refine (inTransaction_yields rotateRefreshInTransaction_yields).mono ?_ fun _ _ h => h
    exact fun _ _ hyields => ⟨transactionId, htransaction, hyields⟩
  exact ⟨fun hrun => hyields.ok hrun, fun hrun => rotateRefreshToken_concludes.error hrun⟩

end Calls

end Sessions
end Devices
end Yuance
