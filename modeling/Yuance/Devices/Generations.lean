import Yuance.Devices.IssuedSessions
import Yuance.Lib.Rows

/-!
# Yuance.Devices.Generations

What the calls do to the rows of the device sessions. Most change rows where they stand and renew
none; an exchange and a rotation that issue credentials add one row to each table they write.

* `Quiet`: no row is new and none becomes active.
* `Issued`, `Rotated`: what an exchange and a rotation add.
* `Chained`: the generations of a family are a chain, and only its end is active.
-/

namespace Yuance
namespace Devices
namespace Sessions

open Lib Platform

/-! ## Rows that change where they stand -/

/-- A family stays what it is; an active one was active, under the same version. -/
structure FamilyKept (f f' : FamilyRow) : Prop where
  id : f'.id = f.id
  authorizationId : f'.authorizationId = f.authorizationId
  deviceId : f'.deviceId = f.deviceId
  userId : f'.userId = f.userId
  serverInstanceId : f'.serverInstanceId = f.serverInstanceId
  live : f'.status = .active → f.status = .active ∧ f'.authorizationVersion = f.authorizationVersion

structure SessionKept (a a' : SessionRow) : Prop where
  id : a'.id = a.id
  accessTokenHash : a'.accessTokenHash = a.accessTokenHash
  familyId : a'.familyId = a.familyId
  generation : a'.generation = a.generation
  live : a'.status = .active → a.status = .active

structure CredentialKept (c c' : CredentialRow) : Prop where
  refreshTokenHash : c'.refreshTokenHash = c.refreshTokenHash
  familyId : c'.familyId = c.familyId
  deviceId : c'.deviceId = c.deviceId
  userId : c'.userId = c.userId
  serverInstanceId : c'.serverInstanceId = c.serverInstanceId
  generation : c'.generation = c.generation
  live : c'.status = .active → c.status = .active

/-- The result of a rotation may be erased. -/
structure RotationKept (r r' : RotationRow) : Prop where
  familyId : r'.familyId = r.familyId
  deviceId : r'.deviceId = r.deviceId
  serverInstanceId : r'.serverInstanceId = r.serverInstanceId
  sourceGeneration : r'.sourceGeneration = r.sourceGeneration
  sourceRefreshTokenHash : r'.sourceRefreshTokenHash = r.sourceRefreshTokenHash
  transactionId : r'.transactionId = r.transactionId
  resultCiphertext : r'.resultCiphertext = r.resultCiphertext ∨ r'.resultCiphertext = ""

structure DeviceKept (d d' : DeviceRow) : Prop where
  id : d'.id = d.id
  status : d'.status = d.status
  authorizationVersion : d'.authorizationVersion = d.authorizationVersion

def UserKept (u u' : UserRow) : Prop := u'.id = u.id

structure Quiet (s s' : Store) : Prop where
  users : List.Forall₂ UserKept s.users s'.users
  devices : List.Forall₂ DeviceKept s.devices s'.devices
  families : List.Forall₂ FamilyKept s.families s'.families
  sessions : List.Forall₂ SessionKept s.sessions s'.sessions
  credentials : List.Forall₂ CredentialKept s.credentials s'.credentials
  rotations : List.Forall₂ RotationKept s.rotations s'.rotations

theorem FamilyKept.refl (f : FamilyRow) : FamilyKept f f :=
  ⟨rfl, rfl, rfl, rfl, rfl, fun h => ⟨h, rfl⟩⟩

theorem FamilyKept.trans (f g h : FamilyRow) (hfg : FamilyKept f g) (hgh : FamilyKept g h) :
    FamilyKept f h where
  id := hgh.id.trans hfg.id
  authorizationId := hgh.authorizationId.trans hfg.authorizationId
  deviceId := hgh.deviceId.trans hfg.deviceId
  userId := hgh.userId.trans hfg.userId
  serverInstanceId := hgh.serverInstanceId.trans hfg.serverInstanceId
  live hlive :=
    ⟨(hfg.live (hgh.live hlive).1).1, (hgh.live hlive).2.trans (hfg.live (hgh.live hlive).1).2⟩

theorem SessionKept.refl (a : SessionRow) : SessionKept a a :=
  ⟨rfl, rfl, rfl, rfl, fun h => h⟩

theorem SessionKept.trans (a b c : SessionRow) (hab : SessionKept a b) (hbc : SessionKept b c) :
    SessionKept a c where
  id := hbc.id.trans hab.id
  accessTokenHash := hbc.accessTokenHash.trans hab.accessTokenHash
  familyId := hbc.familyId.trans hab.familyId
  generation := hbc.generation.trans hab.generation
  live hlive := hab.live (hbc.live hlive)

theorem CredentialKept.refl (c : CredentialRow) : CredentialKept c c :=
  ⟨rfl, rfl, rfl, rfl, rfl, rfl, fun h => h⟩

theorem CredentialKept.trans (a b c : CredentialRow) (hab : CredentialKept a b)
    (hbc : CredentialKept b c) : CredentialKept a c where
  refreshTokenHash := hbc.refreshTokenHash.trans hab.refreshTokenHash
  familyId := hbc.familyId.trans hab.familyId
  deviceId := hbc.deviceId.trans hab.deviceId
  userId := hbc.userId.trans hab.userId
  serverInstanceId := hbc.serverInstanceId.trans hab.serverInstanceId
  generation := hbc.generation.trans hab.generation
  live hlive := hab.live (hbc.live hlive)

theorem RotationKept.refl (r : RotationRow) : RotationKept r r :=
  ⟨rfl, rfl, rfl, rfl, rfl, rfl, .inl rfl⟩

theorem RotationKept.trans (a b c : RotationRow) (hab : RotationKept a b) (hbc : RotationKept b c) :
    RotationKept a c where
  familyId := hbc.familyId.trans hab.familyId
  deviceId := hbc.deviceId.trans hab.deviceId
  serverInstanceId := hbc.serverInstanceId.trans hab.serverInstanceId
  sourceGeneration := hbc.sourceGeneration.trans hab.sourceGeneration
  sourceRefreshTokenHash := hbc.sourceRefreshTokenHash.trans hab.sourceRefreshTokenHash
  transactionId := hbc.transactionId.trans hab.transactionId
  resultCiphertext := by
    rcases hbc.resultCiphertext with hsame | hempty
    · rw [hsame]
      exact hab.resultCiphertext
    · exact .inr hempty

theorem DeviceKept.refl (d : DeviceRow) : DeviceKept d d := ⟨rfl, rfl, rfl⟩

theorem DeviceKept.trans (a b c : DeviceRow) (hab : DeviceKept a b) (hbc : DeviceKept b c) :
    DeviceKept a c :=
  ⟨hbc.id.trans hab.id, hbc.status.trans hab.status,
    hbc.authorizationVersion.trans hab.authorizationVersion⟩

theorem UserKept.refl (u : UserRow) : UserKept u u := rfl

theorem UserKept.trans (a b c : UserRow) (hab : UserKept a b) (hbc : UserKept b c) : UserKept a c :=
  Eq.trans hbc hab

namespace Quiet

variable {s s' s'' : Store}

theorem refl (s : Store) : Quiet s s where
  users := rows_refl .refl s.users
  devices := rows_refl .refl s.devices
  families := rows_refl .refl s.families
  sessions := rows_refl .refl s.sessions
  credentials := rows_refl .refl s.credentials
  rotations := rows_refl .refl s.rotations

theorem trans (h : Quiet s s') (h' : Quiet s' s'') : Quiet s s'' where
  users := rows_trans UserKept.trans h.users h'.users
  devices := rows_trans DeviceKept.trans h.devices h'.devices
  families := rows_trans FamilyKept.trans h.families h'.families
  sessions := rows_trans SessionKept.trans h.sessions h'.sessions
  credentials := rows_trans CredentialKept.trans h.credentials h'.credentials
  rotations := rows_trans RotationKept.trans h.rotations h'.rotations

/-- The authorizations have no part in it. -/
theorem authorizations (s : Store) (rows : List AuthorizationRow) :
    Quiet s { s with authorizations := rows } := { refl s with }

theorem updateFamilies {p : FamilyRow → Bool} {f : FamilyRow → FamilyRow}
    (h : ∀ r, (f r).id = r.id) (hf : ∀ r, FamilyKept r (f r)) : Quiet s (s.updateFamilies p f h) :=
  { refl s with families := rows_updateWhere .refl fun r _ _ => hf r }

theorem revokeFamilyRow (familyId : String) (userId : Int) (now : Stamp) (reason : String) :
    Quiet s (s.revokeFamilyRow familyId userId now reason) := by
  refine updateFamilies _ fun r => ⟨rfl, rfl, rfl, rfl, rfl, ?_⟩
  intro h
  cases h

theorem revokeSessions (p : SessionRow → Bool) (now : Stamp) (reason : String) :
    Quiet s (s.revokeSessions p now reason) := by
  refine { refl s with sessions := rows_updateWhere .refl fun r _ _ => ⟨rfl, rfl, rfl, rfl, ?_⟩ }
  intro h
  cases h

theorem revokeCredentials (familyId : String) (now : Stamp) (reason : String) :
    Quiet s (s.revokeCredentials familyId now reason) := by
  refine { refl s with
    credentials := rows_updateWhere .refl fun r _ _ => ⟨rfl, rfl, rfl, rfl, rfl, rfl, ?_⟩ }
  intro h
  cases h

theorem expireCredential (refreshTokenHash : String) (now : Stamp) :
    Quiet s (s.expireCredential refreshTokenHash now) := by
  refine { refl s with
    credentials := rows_updateWhere .refl fun r _ _ => ⟨rfl, rfl, rfl, rfl, rfl, rfl, ?_⟩ }
  intro h
  cases h

theorem rotateCredential (refreshTokenHash : String) (now : Stamp) :
    Quiet s (s.rotateCredential refreshTokenHash now) := by
  refine { refl s with
    credentials := rows_updateWhere .refl fun r _ _ => ⟨rfl, rfl, rfl, rfl, rfl, rfl, ?_⟩ }
  intro h
  cases h

theorem slideFamily (familyId : String) (refreshSlidingExpiresAt now : Stamp) :
    Quiet s (s.slideFamily familyId refreshSlidingExpiresAt now) :=
  updateFamilies _ fun _ => ⟨rfl, rfl, rfl, rfl, rfl, fun h => ⟨h, rfl⟩⟩

theorem markRotation (familyId : String) (sourceGeneration : Int) (now : Stamp) (erases : Bool) :
    Quiet s (s.markRotation familyId sourceGeneration now erases) := by
  refine { refl s with
    rotations := rows_updateWhere .refl fun r _ _ => ⟨rfl, rfl, rfl, rfl, rfl, rfl, ?_⟩ }
  cases erases with
  | true => exact .inr rfl
  | false => exact .inl rfl

end Quiet

instance : Std.Refl Quiet := ⟨Quiet.refl⟩

instance : IsTrans Store Quiet := ⟨fun _ _ _ => Quiet.trans⟩

/-- The same of all tables. -/
def Calm (t t' : Tables) : Prop := Quiet t.store t'.store

instance : Std.Refl Calm := ⟨fun t => Quiet.refl t.store⟩

instance : IsTrans Tables Calm := ⟨fun _ _ _ h h' => Quiet.trans h h'⟩

/-! ## Calls that renew nothing -/

section Calls

variable {C : Crates} {U : UserCodes} {masterKey : String} {policy : DeviceSessionPolicy}
  {now : Int}

theorem calm_write {f : Tables → Tables} (hf : ∀ t, Calm t (f t)) : Moves Calm (write f) :=
  Moves.execute hf

theorem calm_modify {affected : Tables → Nat} {f : Tables → Tables} (hf : ∀ t, Calm t (f t)) :
    Moves Calm (modify affected f) := Moves.statement hf

theorem calm_onStore {α : Type} {p : Transaction α} (hp : Moves Quiet p) :
    Moves Calm (onStore p) := Moves.zoom (fun _ _ h => h) hp

theorem calm_updateAuthorizations (p : AuthorizationRow → Bool)
    (f : AuthorizationRow → AuthorizationRow) (t : Tables) : Calm t (t.updateAuthorizations p f) :=
  Quiet.authorizations t.store _

theorem calm_insertAuthorization (row : AuthorizationRow) (review : ReviewRow) (t : Tables) :
    Calm t (t.insertAuthorization row review).1 := by
  unfold Tables.insertAuthorization
  split
  · exact Quiet.refl t.store
  · exact Quiet.authorizations t.store _

theorem startAuthorization_calm {draws : Fin 5 → StartDraw} {input : StartAuthorizationInput} :
    Moves Calm (startAuthorization C U masterKey policy now draws input) := by
  unfold startAuthorization
  refine Moves.bind (Moves.ofExcept _) fun _ => Moves.atomically (Moves.bind ?_ fun _ => ?_)
  · unfold prepareAuthorizationCapacity
    refine Moves.bind (calm_write fun t => calm_updateAuthorizations _ _ t) fun _ => ?_
    refine Moves.bind (Moves.ofExcept _) fun _ => ?_
    refine Moves.bind (calm_write fun t => Quiet.authorizations t.store _) fun _ => ?_
    exact Moves.bind (Moves.select _) fun _ => Moves.rejectIf _ _
  · generalize List.ofFn draws = drawn
    induction drawn with
    | nil => exact Moves.fail _
    | cons draw drawn ih =>
      unfold insertDrawn
      refine Moves.bind (Moves.ofExcept _) fun _ => Moves.bind ?_ fun inserted => ?_
      · exact Moves.statement fun t => calm_insertAuthorization _ _ t
      · cases inserted with
        | true => exact Moves.done _
        | false => exact ih

theorem authorizationForReview_calm {serverInstanceId userCode : String} :
    Moves Calm (authorizationForReview U masterKey serverInstanceId userCode) := by
  unfold authorizationForReview
  refine Moves.bind (Moves.ofExcept _) fun _ => Moves.bind (Moves.select _) fun _ => ?_
  refine Moves.bind (Moves.okOr _ _) fun _ => Moves.bind (Moves.ofExcept _) fun _ => ?_
  exact Moves.bind (Moves.ofExcept _) fun _ => Moves.bind (Moves.ofExcept _) fun _ => Moves.done _

theorem classifyDecisionFailure_calm {authorizationId : String} :
    Moves Calm (classifyDecisionFailure now authorizationId) := by
  unfold classifyDecisionFailure
  refine Moves.bind (Moves.select _) fun _ => Moves.bind (Moves.okOr _ _) fun row => ?_
  refine Moves.bind (Moves.ofExcept _) fun expiresAt => ?_
  split
  · exact Moves.bind (calm_write fun t => calm_updateAuthorizations _ _ t) fun _ => Moves.fail _
  · split <;> exact Moves.fail _

theorem ensureActiveUser_quiet {userId : Int} : Moves Quiet (ensureActiveUser userId) := by
  unfold ensureActiveUser
  exact Moves.bind (Moves.select _) fun _ => Moves.rejectIf _ _

theorem writeDecision_calm {authorizationId : String} {userId : Option Int} :
    Moves Calm (writeDecision now authorizationId userId) := by
  unfold writeDecision
  refine Moves.bind (calm_modify fun t => calm_updateAuthorizations _ _ t) fun updated => ?_
  split
  · exact Moves.done _
  · exact classifyDecisionFailure_calm

theorem decideAuthorization_calm {authorizationId : String} {userId : Option Int} :
    Moves Calm (decideAuthorization now authorizationId userId) := by
  cases userId with
  | some userId =>
    exact Moves.atomically
      (Moves.bind (calm_onStore ensureActiveUser_quiet) fun _ => writeDecision_calm)
  | none => exact Moves.atomically writeDecision_calm

theorem enforcePollGate_quiet {row : AuthorizationRow} : Moves Quiet (enforcePollGate now row) := by
  unfold enforcePollGate
  refine Moves.bind (Moves.ofExcept _) fun nextPollAt => ?_
  dsimp only
  split
  · exact Moves.bind (Moves.execute fun s => Quiet.authorizations s _) fun _ => Moves.fail _
  · exact Moves.bind (Moves.statement fun s => Quiet.authorizations s _) fun _ => Moves.rejectIf _ _

theorem pollAuthorization_calm {deviceCode serverInstanceId : String} :
    Moves Calm (pollAuthorization C now deviceCode serverInstanceId) := by
  unfold pollAuthorization
  refine Moves.bind (Moves.ofExcept _) fun _ => calm_onStore (Moves.atomically ?_)
  unfold pollInTransaction
  refine Moves.bind (Moves.select _) fun _ => Moves.bind (Moves.okOr _ _) fun row => ?_
  refine Moves.bind (Moves.ofExcept _) fun expiresAt => ?_
  split
  · exact Moves.bind (Moves.execute fun s => Quiet.authorizations s _) fun _ => Moves.fail _
  · split
    · exact Moves.bind enforcePollGate_quiet fun _ => Moves.done _
    · exact Moves.done _

theorem updateSessions_calm {p : SessionRow → Bool} {f : SessionRow → SessionRow}
    (hf : ∀ a, SessionKept a (f a)) (t : Tables) : Calm t (updateSessions p f t) :=
  { Quiet.refl t.store with sessions := rows_updateWhere .refl fun a _ _ => hf a }

theorem seeDevice_calm (deviceId : String) (now : Stamp) (t : Tables) :
    Calm t (seeDevice deviceId now t) :=
  { Quiet.refl t.store with devices := rows_updateWhere .refl fun _ _ _ => ⟨rfl, rfl, rfl⟩ }

theorem authenticateAccessToken_calm {rawToken serverInstanceId : String} :
    Moves Calm (authenticateAccessToken C now rawToken serverInstanceId) := by
  unfold authenticateAccessToken
  refine Moves.bind (Moves.rejectIf _ _) fun _ => Moves.atomically ?_
  unfold authenticateAccessInTransaction
  refine Moves.bind (Moves.select _) fun _ => Moves.bind (Moves.okOr _ _) fun row => ?_
  refine Moves.bind (Moves.ofExcept _) fun _ => Moves.bind (Moves.ofExcept _) fun expiresAt => ?_
  dsimp only
  split
  · refine Moves.bind (calm_write (updateSessions_calm fun a => ?_)) fun _ => Moves.fail _
    exact ⟨rfl, rfl, rfl, rfl, fun h => by cases h⟩
  · refine Moves.bind (Moves.rejectIf _ _) fun _ => ?_
    refine Moves.bind (calm_write (updateSessions_calm fun a => ?_)) fun _ => ?_
    · exact ⟨rfl, rfl, rfl, rfl, fun h => h⟩
    · exact Moves.bind (calm_write (seeDevice_calm _ _)) fun _ => Moves.done _

theorem revokeFamilyInTransaction_quiet {userId : Int} {familyId reason : String} :
    Moves Quiet (revokeFamilyInTransaction now userId familyId reason) := by
  unfold revokeFamilyInTransaction
  refine Moves.bind (Moves.statement fun s => Quiet.revokeFamilyRow _ _ _ _) fun updated => ?_
  split
  · exact Moves.bind (Moves.select _) fun _ => Moves.fail _
  · refine Moves.bind (Moves.execute fun s => Quiet.revokeSessions _ _ _) fun _ => ?_
    exact Moves.execute fun s => Quiet.revokeCredentials _ _ _

theorem revokeOtherFamilies_calm (t : Tables) (userId : Int) (currentFamily : Option String) :
    Calm t (t.revokeOtherFamilies now userId currentFamily) := by
  unfold Calm Tables.revokeOtherFamilies Tables.keepStore
  dsimp only
  refine Quiet.updateFamilies _ fun f => ⟨rfl, rfl, rfl, rfl, rfl, ?_⟩
  intro h
  cases h

theorem changeOwnPassword_calm {userId : Int} {currentFamily : Option String} :
    Moves Calm (changeOwnPassword now userId currentFamily) := by
  unfold changeOwnPassword
  exact Moves.atomically (calm_write fun t => revokeOtherFamilies_calm t userId currentFamily)

theorem statusSet_calm (t : Tables) (userId : Int) (status : String) :
    Calm t (t.setUserStatus userId status) :=
  { Quiet.refl t.store with users := rows_updateWhere .refl fun _ _ _ => rfl }

theorem setUserStatus_calm {userId : Int} {status : String} :
    Moves Calm (setUserStatus userId status) := by
  unfold setUserStatus
  exact Moves.atomically (calm_write fun t => statusSet_calm t userId status)

theorem cleanupExpiredRotationResults_calm {limit : Int} :
    Moves Calm (cleanupExpiredRotationResults now limit) := by
  unfold cleanupExpiredRotationResults
  refine Moves.bind (Moves.ofExcept _) fun _ => calm_modify fun t => ?_
  exact { Quiet.refl t.store with
    rotations := rows_updateWhere .refl fun _ _ _ => ⟨rfl, rfl, rfl, rfl, rfl, rfl, .inr rfl⟩ }

theorem cleanupExpiredAuthorizations_calm {limit : Int} :
    Moves Calm (cleanupExpiredAuthorizations now limit) := by
  unfold cleanupExpiredAuthorizations
  refine Moves.bind (Moves.ofExcept _) fun _ => Moves.atomically ?_
  refine Moves.bind (calm_modify fun t => calm_updateAuthorizations _ _ t) fun _ => ?_
  exact Moves.bind (calm_modify fun t => Quiet.authorizations t.store _) fun _ => Moves.done _

theorem eraseExpiredExchangeResults_calm : Moves Calm (eraseExpiredExchangeResults now) :=
  calm_modify fun t => calm_updateAuthorizations _ _ t

end Calls

/-! ## Calls that fail -/

theorem ExchangeLeaves.quiet {s s' : Store} {deviceCodeHash serverInstanceId : String} {now : Int}
    (h : ExchangeLeaves s deviceCodeHash serverInstanceId now s') : Quiet s s' := by
  cases h with
  | nothing => exact Quiet.refl s
  | expired _ => exact Quiet.authorizations s _
  | gate _ _ => exact Quiet.authorizations s _

theorem RotationLeaves.quiet {s s' : Store} {refreshTokenHash : String} {sourceGeneration now : Int}
    (h : RotationLeaves s refreshTokenHash sourceGeneration now s') : Quiet s s' := by
  cases h with
  | nothing => exact Quiet.refl s
  | expired => exact Quiet.expireCredential _ _
  | revoked _ _ =>
    unfold Store.revokedFamily
    refine Quiet.trans ?_ (Quiet.markRotation _ _ _ _)
    refine Quiet.trans ?_ (Quiet.revokeCredentials _ _ _)
    exact Quiet.trans (Quiet.revokeFamilyRow _ _ _ _) (Quiet.revokeSessions _ _ _)

/-! ## What a call does -/

/-- A call returns no credentials and renews nothing, or it is an exchange or a rotation that
returns some. -/
inductive Served (S : Server) (t : Tables) (e : Event) : Tables → Outcome → Prop where
  | calm {t' : Tables} {out : Outcome} (hcalm : Calm t t')
      (hnone : ∀ credentials, out ≠ .ok (.credentials credentials)) : Served S t e t' out
  | exchanged {drawn : Drawn} {input : ExchangeAuthorizationInput} {transactionId : String}
      {s' : Store} {credentials : Credentials} (hcall : e.call = .exchange drawn input)
      (hpolicy : validatePolicy S.policy = .ok ())
      (htransaction : normalizeTransactionIdDomain S.crates input.exchangeTransactionId =
        .ok transactionId)
      (hyields : ExchangeYields S.crates drawn S.masterKey S.policy e.now t.store
        (hashDeviceToken S.crates input.deviceCode) input.codeVerifier transactionId s'
        credentials) : Served S t e (t.keepStore s') (.ok (.credentials credentials))
  | rotated {drawn : Drawn} {input : RotateRefreshInput} {transactionId : String} {s' : Store}
      {credentials : Credentials} (hcall : e.call = .rotate drawn input)
      (htransaction : normalizeTransactionIdDomain S.crates input.transactionId = .ok transactionId)
      (hyields : RotationYields S.crates drawn S.masterKey S.policy e.now t.store
        (hashDeviceToken S.crates input.refreshToken) input.generation transactionId input.deviceId
        s' credentials) : Served S t e (t.keepStore s') (.ok (.credentials credentials))

theorem calm_call {t : Tables} {α : Type} {p : Work α} {answer : α → Answer} (hp : Moves Calm p)
    (hanswer : ∀ x credentials, answer x ≠ .credentials credentials) :
    Concludes (p >>= fun x => pure (answer x)) t
      (fun t' a => Calm t t' ∧ ∀ credentials, a ≠ .credentials credentials) fun t' _ => Calm t t' :=
  Concludes.bind (hp t) fun _ x hcalm => Concludes.done ⟨hcalm, hanswer x⟩

theorem Served.of_concludes {S : Server} {t t' : Tables} {e : Event} {out : Outcome}
    (h : Concludes (e.call.transaction S e.now) t (fun t' a => Served S t e t' (.ok a))
      fun t' _ => Calm t t') (hserve : serve S t e = some (t', out)) : Served S t e t' out := by
  unfold serve at hserve
  rcases hrun : e.call.transaction S e.now e.faults 0 t with ⟨n, left, result⟩
  rw [hrun] at hserve
  cases hserve
  cases result with
  | ok a => exact h.ok hrun
  | error error => exact .calm (h.error hrun) fun _ heq => by cases heq

theorem exchanged_of {S : Server} {t : Tables} {e : Event} {drawn : Drawn}
    {input : ExchangeAuthorizationInput} {s' : Store} {credentials : Credentials}
    (hcall : e.call = .exchange drawn input)
    (h : validatePolicy S.policy = .ok () ∧ ∃ transactionId,
      normalizeTransactionIdDomain S.crates input.exchangeTransactionId = .ok transactionId ∧
      ExchangeYields S.crates drawn S.masterKey S.policy e.now t.store
        (hashDeviceToken S.crates input.deviceCode) input.codeVerifier transactionId s'
        credentials) :
    Served S t e (t.keepStore s') (.ok (.credentials credentials)) := by
  obtain ⟨hpolicy, transactionId, htransaction, hyields⟩ := h
  exact .exchanged hcall hpolicy htransaction hyields

theorem rotated_of {S : Server} {t : Tables} {e : Event} {drawn : Drawn}
    {input : RotateRefreshInput}
    {s' : Store} {credentials : Credentials} (hcall : e.call = .rotate drawn input)
    (h : ∃ transactionId, normalizeTransactionIdDomain S.crates input.transactionId =
      .ok transactionId ∧ RotationYields S.crates drawn S.masterKey S.policy e.now t.store
        (hashDeviceToken S.crates input.refreshToken) input.generation transactionId input.deviceId
        s' credentials) :
    Served S t e (t.keepStore s') (.ok (.credentials credentials)) := by
  obtain ⟨transactionId, htransaction, hyields⟩ := h
  exact .rotated hcall htransaction hyields

theorem serve_cases {S : Server} {t t' : Tables} {e : Event} {out : Outcome}
    (hserve : serve S t e = some (t', out)) : Served S t e t' out := by
  refine Served.of_concludes ?_ hserve
  have hcalm : ∀ {α : Type} {p : Work α} {answer : α → Answer}, Moves Calm p →
      (∀ x credentials, answer x ≠ .credentials credentials) →
      Concludes (p >>= fun x => pure (answer x)) t (fun t' a => Served S t e t' (.ok a))
        fun t' _ => Calm t t' := by
    intro α p answer hp hanswer
    refine (calm_call hp hanswer).mono ?_ fun _ _ h => h
    rintro t' a ⟨hcalm, hnone⟩
    refine .calm hcalm fun credentials heq => hnone credentials ?_
    exact Except.ok.inj heq
  cases hcall : e.call with
  | start draws input =>
    exact hcalm startAuthorization_calm fun _ _ h => by cases h
  | expireByUserCode userCodeHash serverInstanceId =>
    exact hcalm (calm_write fun t => calm_updateAuthorizations _ _ t) fun _ _ h => by cases h
  | review serverInstanceId userCode =>
    exact hcalm authorizationForReview_calm fun _ _ h => by cases h
  | approve authorizationId userId =>
    exact hcalm decideAuthorization_calm fun _ _ h => by cases h
  | deny authorizationId =>
    exact hcalm decideAuthorization_calm fun _ _ h => by cases h
  | poll deviceCode serverInstanceId =>
    exact hcalm pollAuthorization_calm fun _ _ h => by cases h
  | exchange drawn input =>
    refine Concludes.bind (Q := fun t' c => Served S t e t' (.ok (.credentials c)))
      (Concludes.zoom (exchangeBehindReading_yields.mono
        (fun s' credentials h => exchanged_of hcall h) fun _ _ hleaves => hleaves.quiet)) ?_
    exact fun _ _ hserved => Concludes.done hserved
  | rotate drawn input =>
    refine Concludes.bind (Q := fun t' c => Served S t e t' (.ok (.credentials c)))
      (Concludes.zoom (rotateRefreshToken_yields.mono
        (fun s' credentials h => rotated_of hcall h) fun _ _ hleaves => hleaves.quiet)) ?_
    exact fun _ _ hserved => Concludes.done hserved
  | authenticate rawToken serverInstanceId =>
    exact hcalm authenticateAccessToken_calm fun _ _ h => by cases h
  | revoke userId familyId reason =>
    exact hcalm (calm_onStore (Moves.atomically revokeFamilyInTransaction_quiet))
      fun _ _ h => by cases h
  | changeOwnPassword userId currentFamily =>
    exact hcalm changeOwnPassword_calm fun _ _ h => by cases h
  | setUserStatus userId status =>
    exact hcalm setUserStatus_calm fun _ _ h => by cases h
  | cleanupRotations limit =>
    exact hcalm cleanupExpiredRotationResults_calm fun _ _ h => by cases h
  | cleanupAuthorizations limit =>
    exact hcalm cleanupExpiredAuthorizations_calm fun _ _ h => by cases h
  | eraseExchangeResults =>
    exact hcalm eraseExpiredExchangeResults_calm fun _ _ h => by cases h

end Sessions
end Devices
end Yuance
