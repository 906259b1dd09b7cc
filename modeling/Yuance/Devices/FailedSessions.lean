import Yuance.Devices.Sessions

/-!
# Yuance.Devices.FailedSessions

What a call of `Yuance.Devices.Sessions` that fails leaves behind. Most errors are raised before
anything was written, or are of the three kinds that take everything back; the others leave what was
written before them.

* `Aborts`: the errors that take everything back.
* `ExchangeLeaves`, `RotationLeaves`: what else an error leaves.
* `issueCredentials_aborts`, `issueRotation_aborts`: from the first new row on, every error takes
  everything back.
-/

namespace Yuance
namespace Devices
namespace Sessions

open Lib Platform

/-- The transaction is rolled back. -/
def Aborts (e : DeviceSessionError) : Prop :=
  transactionShouldCommit (.error e : Except DeviceSessionError Credentials) = false

theorem aborts_storage : Aborts .storageFailure := rfl

theorem aborts_crypto : Aborts .cryptoFailure := rfl

theorem aborts_invalidState (state : String) : Aborts (invalidState state) := rfl

/-! ## Errors of the single steps -/

section Steps

variable {C : Crates} {drawn : Drawn} {masterKey : String} {policy : DeviceSessionPolicy}
  {now : Int} {s : Store} {Q : Store → Unit → Prop} {E : Store → DeviceSessionError → Prop}
  {e : DeviceSessionError}

theorem parseTimestamp_aborts {value : Stamp} (h : parseTimestamp value = .error e) : Aborts e := by
  unfold parseTimestamp okOr at h
  split at h
  · cases h
    exact aborts_invalidState _
  · cases h

theorem sealCredentials_aborts {nonce : FixedBytes 12} {credentials : Credentials} {aad : Bytes}
    (h : sealCredentials C nonce masterKey credentials aad = .error e) : Aborts e := by
  unfold sealCredentials at h
  cases hseal : Crypto.encryptSecret C.secrets nonce masterKey (C.encodeCredentials credentials)
      aad with
  | error _ =>
    rw [hseal] at h
    cases h
    exact aborts_crypto
  | ok _ =>
    rw [hseal] at h
    cases h

/-- An insert that its constraints refuse breaks as any other statement. -/
theorem insert_bind {α : Type} {f : Store → Store × Except DeviceSessionError Unit}
    {k : Unit → Transaction α} {R : Store → α → Prop}
    (hf : (f s).2 = .ok () ∨ (f s).2 = .error .storageFailure) (hE : ∀ s', E s' .storageFailure)
    (hk : ∀ s', Concludes (k ()) s' R E) : Concludes (insert f >>= k) s R E := by
  refine Concludes.statement_bind (hE s) (fun e he => ?_) fun _ _ => hk _
  rw [he] at hf
  rcases hf with hok | hbroken
  · cases hok
  · cases hbroken
    exact hE _

theorem update_bind {α : Type} {affected : Store → Nat} {f : Store → Store}
    {k : Nat → Transaction α} {R : Store → α → Prop} (hE : E s .storageFailure)
    (hk : Concludes (k (affected s)) (f s) R E) : Concludes (update affected f >>= k) s R E := by
  refine Concludes.statement_bind hE (fun _ h => nomatch h) ?_
  rintro n ⟨⟩
  exact hk

theorem insertFamily_result {row : FamilyRow} :
    (s.insertFamily row).2 = .ok () ∨ (s.insertFamily row).2 = .error .storageFailure := by
  unfold Store.insertFamily
  split
  · exact .inr rfl
  · split
    · exact .inr rfl
    · exact .inl rfl

theorem insertSession_result {row : SessionRow} :
    (s.insertSession row).2 = .ok () ∨ (s.insertSession row).2 = .error .storageFailure := by
  unfold Store.insertSession
  split
  · exact .inr rfl
  · exact .inl rfl

theorem insertCredential_result {row : CredentialRow} :
    (s.insertCredential row).2 = .ok () ∨ (s.insertCredential row).2 = .error .storageFailure := by
  unfold Store.insertCredential
  split
  · exact .inr rfl
  · exact .inl rfl

theorem insertRotation_result {row : RotationRow} :
    (s.insertRotation row).2 = .ok () ∨ (s.insertRotation row).2 = .error .storageFailure := by
  unfold Store.insertRotation
  split
  · exact .inr rfl
  · exact .inl rfl

theorem upsertDeviceRow_result {row : DeviceRow} :
    (s.upsertDeviceRow row).2 = .ok () ∨ (s.upsertDeviceRow row).2 = .error .storageFailure := by
  unfold Store.upsertDeviceRow
  split
  · exact .inl rfl
  · split
    · exact .inr rfl
    · exact .inl rfl

end Steps

/-! ## From the first new row on -/

section Issue

variable {C : Crates} {drawn : Drawn} {masterKey : String} {policy : DeviceSessionPolicy}
  {now : Int} {s : Store}

theorem upsertDevice_aborts {authorization : AuthorizationRow} {userId : Int} :
    Concludes (upsertDevice drawn policy now authorization userId) s (fun _ _ => True)
      fun _ e => Aborts e := by
  unfold upsertDevice
  refine insert_bind upsertDeviceRow_result (fun _ => aborts_storage) fun _ => ?_
  refine Concludes.select_bind aborts_storage ?_
  refine Concludes.okOr_bind (fun _ => aborts_storage) fun _ _ => ?_
  refine Concludes.rejectIf_bind (fun _ => aborts_invalidState _) fun _ => ?_
  exact Concludes.done trivial

theorem issueCredentials_aborts {row : AuthorizationRow} {userId : Int}
    {transactionId deviceCodeHash : String} :
    Concludes
      (issueCredentials C drawn masterKey policy now row userId transactionId deviceCodeHash) s
      (fun _ _ => True) fun _ e => Aborts e := by
  unfold issueCredentials insertSessionOf insertCredentialOf
  refine Concludes.bind upsertDevice_aborts fun _ _ _ => ?_
  refine insert_bind insertFamily_result (fun _ => aborts_storage) fun _ => ?_
  refine Concludes.select_bind aborts_storage ?_
  refine Concludes.okOr_bind (fun _ => aborts_storage) fun _ _ => ?_
  refine insert_bind insertSession_result (fun _ => aborts_storage) fun _ => ?_
  refine insert_bind insertCredential_result (fun _ => aborts_storage) fun _ => ?_
  refine Concludes.ofExcept_bind ?_ ?_
  · intro e h
    exact sealCredentials_aborts h
  intro ciphertext _
  refine update_bind aborts_storage ?_
  refine Concludes.rejectIf_bind (fun _ => aborts_invalidState _) fun _ => ?_
  exact Concludes.done trivial

theorem issueRotation_aborts {row : RefreshRow} {sourceGeneration : Int}
    {transactionId sourceRefreshTokenHash : String} {credentials : Credentials} :
    Concludes (issueRotation C drawn masterKey policy now row sourceGeneration transactionId
      sourceRefreshTokenHash credentials) s (fun _ _ => True) fun _ e => Aborts e := by
  unfold issueRotation insertSessionOf insertCredentialOf
  refine Concludes.ofExcept_bind ?_ ?_
  · intro e h
    exact sealCredentials_aborts h
  intro ciphertext _
  refine update_bind aborts_storage ?_
  refine Concludes.rejectIf_bind (fun _ => aborts_invalidState _) fun _ => ?_
  refine Concludes.execute_bind aborts_storage ?_
  refine insert_bind insertSession_result (fun _ => aborts_storage) fun _ => ?_
  refine insert_bind insertCredential_result (fun _ => aborts_storage) fun _ => ?_
  refine Concludes.execute_bind aborts_storage ?_
  refine insert_bind insertRotation_result (fun _ => aborts_storage) fun _ => ?_
  exact Concludes.done trivial

end Issue

/-! ## The exchange -/

/-- What an exchange that fails leaves of the tables `s`. -/
inductive ExchangeLeaves (s : Store) (deviceCodeHash serverInstanceId : String) (now : Int) :
    Store → Prop where
  | nothing : ExchangeLeaves s deviceCodeHash serverInstanceId now s
  /-- The authorization is marked as expired. -/
  | expired {row : AuthorizationRow}
      (hrow : s.findAuthorization deviceCodeHash serverInstanceId = some row) :
      ExchangeLeaves s deviceCodeHash serverInstanceId now
        (s.expireAuthorization row.id (timestamp now))
  /-- The time of its next poll is set. -/
  | gate {row : AuthorizationRow} {p : AuthorizationRow → Bool} {nextPollAt : Stamp}
      (hrow : s.findAuthorization deviceCodeHash serverInstanceId = some row)
      (hp : ∀ a, p a = true → a.id = row.id) :
      ExchangeLeaves s deviceCodeHash serverInstanceId now
        (s.setNextPoll p nextPollAt (timestamp now))

section Exchange

variable {C : Crates} {drawn : Drawn} {masterKey : String} {policy : DeviceSessionPolicy}
  {now : Int} {s s' : Store} {row : AuthorizationRow}
  {deviceCodeHash serverInstanceId transactionId : String}

/-- Only the time of the next poll of the row was set, if anything. -/
def Gated (s : Store) (row : AuthorizationRow) (now : Int) (s' : Store) : Prop :=
  ∃ p nextPollAt, (∀ a, p a = true → a.id = row.id) ∧
    s' = s.setNextPoll p nextPollAt (timestamp now)

theorem Gated.leaves (h : Gated s row now s')
    (hrow : s.findAuthorization deviceCodeHash serverInstanceId = some row) :
    ExchangeLeaves s deviceCodeHash serverInstanceId now s' := by
  obtain ⟨p, nextPollAt, hp, rfl⟩ := h
  exact .gate hrow hp

theorem enforcePollGate_concludes :
    Concludes (enforcePollGate now row) s (fun s' _ => Gated s row now s')
      fun s' e => Aborts e ∨ Gated s row now s' := by
  unfold enforcePollGate
  refine Concludes.ofExcept_bind (fun _ h => .inl (parseTimestamp_aborts h)) fun nextPollAt _ => ?_
  dsimp only
  split
  · refine Concludes.execute_bind (.inl aborts_storage) ?_
    exact Concludes.fail (.inr ⟨_, _, fun a ha => eq_of_beq ha, rfl⟩)
  · have hdue : Gated s row now (s.setNextPoll
        (fun a => a.id == row.id && !((timestamp now).text < a.nextPollAt.text))
        (timestamp (now + seconds row.pollIntervalSeconds)) (timestamp now)) := by
      refine ⟨_, _, fun a ha => ?_, rfl⟩
      rw [Bool.and_eq_true] at ha
      exact eq_of_beq ha.1
    refine update_bind (.inl aborts_storage) ?_
    exact Concludes.rejectIf (fun _ => .inr hdue) fun _ => hdue

theorem exchangeOpen_concludes
    (hrow : s.findAuthorization deviceCodeHash policy.serverInstanceId = some row) :
    Concludes (exchangeOpen C drawn masterKey policy now row transactionId deviceCodeHash) s
      (fun _ _ => True) fun s' e =>
        Aborts e ∨ ExchangeLeaves s deviceCodeHash policy.serverInstanceId now s' := by
  unfold exchangeOpen
  refine Concludes.ofExcept_bind (fun _ h => .inl (parseTimestamp_aborts h)) fun expiresAt _ => ?_
  split
  · refine Concludes.execute_bind (.inl aborts_storage) ?_
    exact Concludes.fail (.inr (.expired hrow))
  · refine Concludes.ofExcept_bind (fun _ _ => .inr .nothing) fun _ _ => ?_
    refine Concludes.bind (enforcePollGate_concludes.mono (fun _ _ h => h) ?_) ?_
    · rintro s' e (habort | hgated)
      · exact .inl habort
      · exact .inr (hgated.leaves hrow)
    · intro s' _ hgated
      have hleaves := hgated.leaves hrow
      refine Concludes.rejectIf_bind (fun _ => .inr hleaves) fun _ => ?_
      refine Concludes.okOr_bind (fun _ => .inr hleaves) fun userId _ => ?_
      refine Concludes.bind (Q := fun _ _ => True) ?_ fun _ _ _ =>
        issueCredentials_aborts.mono (fun _ _ h => h) fun _ _ h => .inl h
      unfold ensureActiveUser
      refine Concludes.select_bind (.inl aborts_storage) ?_
      exact Concludes.rejectIf (fun _ => .inr hleaves) fun _ => trivial

theorem exchangeInTransaction_concludes {codeVerifier : String} :
    Concludes (exchangeInTransaction C drawn masterKey policy now deviceCodeHash codeVerifier
      transactionId) s (fun _ _ => True) fun s' e =>
        Aborts e ∨ ExchangeLeaves s deviceCodeHash policy.serverInstanceId now s' := by
  unfold exchangeInTransaction
  refine Concludes.select_bind (.inl aborts_storage) ?_
  refine Concludes.okOr_bind (fun _ => .inr .nothing) fun row hrow => ?_
  refine Concludes.rejectIf_bind (fun _ => .inr .nothing) fun _ => ?_
  split
  · exact Concludes.ofExcept (fun _ _ => .inr .nothing) fun _ _ => trivial
  · exact exchangeOpen_concludes hrow

/-- A transaction whose errors roll back or leave what `L` says. -/
theorem inTransaction_concludes {p : Transaction Credentials} {L : Store → Prop} (hnothing : L s)
    (hp : Concludes p s (fun _ _ => True) fun s' e => Aborts e ∨ L s') :
    Concludes (inTransaction p) s (fun _ _ => True) fun s' _ => L s' := by
  refine Concludes.atomically hnothing (fun _ _ => hnothing) (hp.mono (fun _ _ _ => trivial) ?_)
  rintro s' e (habort | hleaves) hcommits
  · exact absurd hcommits (Bool.eq_false_iff.mp habort)
  · exact hleaves

end Exchange

/-- The hash under which the authorization of a device code is found. -/
theorem exchangeAuthorization_concludes {C : Crates} {drawn : Drawn} {masterKey : String}
    {policy : DeviceSessionPolicy} {now : Int} {s : Store} {input : ExchangeAuthorizationInput} :
    Concludes (exchangeAuthorization C drawn masterKey policy now input) s (fun _ _ => True)
      fun s' _ => ExchangeLeaves s (hashDeviceToken C input.deviceCode) policy.serverInstanceId now
        s' := by
  unfold exchangeAuthorization
  refine Concludes.ofExcept_bind (fun _ _ => .nothing) fun _ _ => ?_
  refine Concludes.ofExcept_bind (fun _ _ => .nothing) fun _ _ => ?_
  refine Concludes.ofExcept_bind (fun _ _ => .nothing) fun transactionId _ => ?_
  refine Concludes.ofExcept_bind (fun _ _ => .nothing) fun deviceCodeHash hhash => ?_
  refine Concludes.select_bind .nothing ?_
  refine Concludes.rejectIf_bind (fun _ => .nothing) fun _ => ?_
  obtain ⟨_, _, hhash⟩ := bind_eq_ok.mp hhash
  cases hhash
  exact inTransaction_concludes .nothing exchangeInTransaction_concludes

/-! ## The rotation -/

/-- The family with its sessions, its credentials and the rotation marked as revoked. -/
def Store.revokedFamily (s : Store) (row : RefreshRow) (sourceGeneration : Int) (now : Stamp)
    (reason : String) (erases : Bool) : Store :=
  (((s.revokeFamilyRow row.familyId row.userId now reason).revokeSessions
    (·.familyId == row.familyId) now reason).revokeCredentials row.familyId now
      reason).markRotation row.familyId sourceGeneration now erases

/-- What a rotation that fails leaves of the tables `s`. -/
inductive RotationLeaves (s : Store) (refreshTokenHash : String) (sourceGeneration now : Int) :
    Store → Prop where
  | nothing : RotationLeaves s refreshTokenHash sourceGeneration now s
  /-- The credential is marked as expired. -/
  | expired : RotationLeaves s refreshTokenHash sourceGeneration now
      (s.expireCredential refreshTokenHash (timestamp now))
  /-- The family of the credential is revoked. -/
  | revoked {row : RefreshRow} {reason : String} {erases : Bool}
      (hrow : s.findRefresh refreshTokenHash = some row)
      (hone : (s.families.filter (Store.revocable row.familyId row.userId)).length = 1) :
      RotationLeaves s refreshTokenHash sourceGeneration now
        (s.revokedFamily row sourceGeneration (timestamp now) reason erases)

namespace Store

variable {s : Store}

theorem updateFamilies_eq_self {p : FamilyRow → Bool} {f : FamilyRow → FamilyRow}
    {h : ∀ r, (f r).id = r.id} (hnone : ∀ r ∈ s.families, p r = false) :
    s.updateFamilies p f h = s := by
  cases s
  unfold updateFamilies
  congr 1
  exact updateWhere_eq_self hnone

/-- Where the update does not find one row, it finds none. -/
theorem revocable_none {familyId : String} {userId : Int}
    (h : (s.families.filter (revocable familyId userId)).length ≠ 1) :
    ∀ f ∈ s.families, revocable familyId userId f = false := by
  intro f hf
  refine Bool.eq_false_iff.mpr fun hrevocable => h ?_
  have hid : ∀ g, revocable familyId userId g = true → g.id = familyId := by
    intro g hg
    unfold revocable at hg
    rw [Bool.and_eq_true, Bool.and_eq_true] at hg
    exact eq_of_beq hg.1.1
  have hsame : s.families.filter (revocable familyId userId) =
      (s.families.filter fun g => g.id == f.id).filter (revocable familyId userId) := by
    rw [List.filter_filter]
    refine List.filter_congr fun g _ => ?_
    by_cases hg : revocable familyId userId g = true
    · rw [hg, hid g hg, hid f hrevocable, beq_self_eq_true]
      rfl
    · rw [Bool.eq_false_iff.mpr hg, Bool.false_and]
  rw [hsame, filter_of_key s.familyIds hf, List.filter_cons_of_pos hrevocable]
  rfl

end Store

section Rotation

variable {C : Crates} {drawn : Drawn} {masterKey : String} {policy : DeviceSessionPolicy}
  {now sourceGeneration : Int} {s s' : Store} {row : RefreshRow}
  {refreshTokenHash transactionId requestedDeviceId : String}

theorem revokeRotated_concludes {reason : String} {erases : Bool} {error : DeviceSessionError}
    (hrow : s.findRefresh refreshTokenHash = some row) :
    Concludes (revokeRotated now row sourceGeneration reason erases error) s (fun _ _ => True)
      fun s' e => Aborts e ∨ RotationLeaves s refreshTokenHash sourceGeneration now s' := by
  unfold revokeRotated revokeFamilyInTransaction
  by_cases hone : (s.families.filter (Store.revocable row.familyId row.userId)).length = 1
  · refine Concludes.bind (Q := fun s' _ => s' = ((s.revokeFamilyRow row.familyId row.userId
      (timestamp now) (truncateMetadata reason 128)).revokeSessions (·.familyId == row.familyId)
        (timestamp now) (truncateMetadata reason 128)).revokeCredentials row.familyId
          (timestamp now) (truncateMetadata reason 128)) ?_ ?_
    · refine update_bind (.inl aborts_storage) ?_
      rw [if_neg (not_not.mpr hone)]
      refine Concludes.execute_bind (.inl aborts_storage) ?_
      exact Concludes.statement (.inl aborts_storage) (fun _ h => nomatch h) fun _ _ => rfl
    · rintro _ _ rfl
      refine Concludes.execute_bind (.inl aborts_storage) ?_
      exact Concludes.fail (.inr (.revoked hrow hone))
  · -- the update found no row: nothing was done
    have hnone : s.revokeFamilyRow row.familyId row.userId (timestamp now)
        (truncateMetadata reason 128) = s :=
      Store.updateFamilies_eq_self (Store.revocable_none hone)
    refine Concludes.bind (Q := fun _ _ => False) ?_ fun _ _ h => h.elim
    refine update_bind (.inl aborts_storage) ?_
    rw [if_pos hone, hnone]
    refine Concludes.select_bind (.inl aborts_storage) ?_
    exact Concludes.fail (.inr .nothing)

theorem answerRotated_concludes {rotation : RotationRow}
    (hrow : s.findRefresh refreshTokenHash = some row) :
    Concludes (answerRotated C masterKey policy now row rotation sourceGeneration transactionId
      refreshTokenHash) s (fun _ _ => True)
      fun s' e => Aborts e ∨ RotationLeaves s refreshTokenHash sourceGeneration now s' := by
  unfold answerRotated
  split
  · exact revokeRotated_concludes hrow
  · refine Concludes.ofExcept_bind (fun _ h => .inl (parseTimestamp_aborts h)) fun _ _ => ?_
    split
    · exact revokeRotated_concludes hrow
    · split
      · exact Concludes.done trivial
      · exact revokeRotated_concludes hrow

theorem rotateFresh_concludes :
    Concludes (rotateFresh C drawn masterKey policy now row sourceGeneration transactionId
      refreshTokenHash) s (fun _ _ => True)
      fun s' e => Aborts e ∨ RotationLeaves s refreshTokenHash sourceGeneration now s' := by
  unfold rotateFresh
  refine Concludes.rejectIf_bind (fun _ => .inr .nothing) fun _ => ?_
  refine Concludes.ofExcept_bind (fun _ h => .inl (parseTimestamp_aborts h)) fun _ _ => ?_
  refine Concludes.ofExcept_bind (fun _ h => .inl (parseTimestamp_aborts h)) fun _ _ => ?_
  split
  · refine Concludes.execute_bind (.inl aborts_storage) ?_
    exact Concludes.fail (.inr .expired)
  · refine Concludes.select_bind (.inl aborts_storage) ?_
    refine Concludes.rejectIf_bind (fun _ => .inr .nothing) fun _ => ?_
    refine Concludes.mono issueRotation_aborts ?_ ?_
    · exact fun _ _ h => h
    · exact fun _ _ h => .inl h

theorem rotateRefreshInTransaction_concludes :
    Concludes (rotateRefreshInTransaction C drawn masterKey policy now refreshTokenHash
      sourceGeneration transactionId requestedDeviceId) s (fun _ _ => True)
      fun s' e => Aborts e ∨ RotationLeaves s refreshTokenHash sourceGeneration now s' := by
  unfold rotateRefreshInTransaction
  refine Concludes.select_bind (.inl aborts_storage) ?_
  refine Concludes.okOr_bind (fun _ => .inr .nothing) fun row hrow => ?_
  refine Concludes.ofExcept_bind (fun _ _ => .inr .nothing) fun _ _ => ?_
  refine Concludes.select_bind (.inl aborts_storage) ?_
  split
  · exact answerRotated_concludes hrow
  · exact rotateFresh_concludes

theorem rotateRefreshToken_concludes {input : RotateRefreshInput} :
    Concludes (rotateRefreshToken C drawn masterKey policy now input) s (fun _ _ => True)
      fun s' _ => RotationLeaves s (hashDeviceToken C input.refreshToken) input.generation now
        s' := by
  unfold rotateRefreshToken
  refine Concludes.ofExcept_bind (fun _ _ => .nothing) fun _ _ => ?_
  refine Concludes.rejectIf_bind (fun _ => .nothing) fun _ => ?_
  refine Concludes.ofExcept_bind (fun _ _ => .nothing) fun transactionId _ => ?_
  refine Concludes.rejectIf_bind (fun _ => .nothing) fun _ => ?_
  exact inTransaction_concludes .nothing rotateRefreshInTransaction_concludes

end Rotation

/-! ## Nothing is issued -/

/-- The family is revoked, and nothing of it is in use. -/
structure Store.Revoked (s : Store) (familyId : String) : Prop where
  family : ∃ f ∈ s.families, f.id = familyId ∧ f.status = .revoked
  sessions : ∀ a ∈ s.sessions, a.familyId = familyId → a.status ≠ .active
  credentials : ∀ c ∈ s.credentials, c.familyId = familyId →
    c.status ≠ .active ∧ c.status ≠ .rotated

theorem Store.revokedFamily_revoked {s : Store} {row : RefreshRow} {sourceGeneration : Int}
    {now : Stamp} {reason : String} {erases : Bool}
    (hone : (s.families.filter (Store.revocable row.familyId row.userId)).length = 1) :
    (s.revokedFamily row sourceGeneration now reason erases).Revoked row.familyId := by
  constructor
  · obtain ⟨f, hf⟩ := List.exists_mem_of_length_pos (by omega :
      0 < (s.families.filter (Store.revocable row.familyId row.userId)).length)
    obtain ⟨hmem, hrevocable⟩ := List.mem_filter.mp hf
    refine ⟨_, mem_updateWhere.mpr ⟨f, hmem, rfl⟩, ?_⟩
    rw [if_pos hrevocable]
    unfold Store.revocable at hrevocable
    rw [Bool.and_eq_true, Bool.and_eq_true] at hrevocable
    exact ⟨eq_of_beq hrevocable.1.1, rfl⟩
  · intro a ha hfamily hactive
    obtain ⟨a', _, rfl⟩ := mem_updateWhere.mp ha
    split at hactive
    · cases hactive
    · rename_i hnot
      rw [if_neg hnot] at hfamily
      refine hnot ?_
      dsimp only
      rw [hfamily, hactive, beq_self_eq_true]
      rfl
  · intro c hc hfamily
    obtain ⟨c', _, rfl⟩ := mem_updateWhere.mp hc
    split
    · constructor
      · exact fun h => nomatch h
      · exact fun h => nomatch h
    · rename_i hnot
      rw [if_neg hnot] at hfamily
      rw [hfamily, beq_self_eq_true, Bool.true_and, Bool.or_eq_true, not_or] at hnot
      exact ⟨fun h => hnot.1 (beq_iff_eq.mpr h), fun h => hnot.2 (beq_iff_eq.mpr h)⟩

/-- What an exchange that fails leaves is about authorizations alone. -/
theorem ExchangeLeaves.tables {s s' : Store} {deviceCodeHash serverInstanceId : String} {now : Int}
    (h : ExchangeLeaves s deviceCodeHash serverInstanceId now s') :
    s'.devices = s.devices ∧ s'.families = s.families ∧ s'.sessions = s.sessions ∧
      s'.credentials = s.credentials ∧ s'.rotations = s.rotations ∧ s'.users = s.users := by
  cases h <;> exact ⟨rfl, rfl, rfl, rfl, rfl, rfl⟩

/-- No row is new behind a rotation that fails. -/
theorem RotationLeaves.rows {s s' : Store} {refreshTokenHash : String} {sourceGeneration now : Int}
    (h : RotationLeaves s refreshTokenHash sourceGeneration now s') :
    s'.sessions.map (·.id) = s.sessions.map (·.id) ∧
      s'.credentials.map (·.id) = s.credentials.map (·.id) ∧
      s'.rotations.map (·.id) = s.rotations.map (·.id) ∧
      s'.families.map (·.id) = s.families.map (·.id) ∧ s'.devices = s.devices ∧
      s'.authorizations = s.authorizations ∧ s'.users = s.users := by
  cases h with
  | nothing => exact ⟨rfl, rfl, rfl, rfl, rfl, rfl, rfl⟩
  | expired =>
    refine ⟨rfl, ?_, rfl, rfl, rfl, rfl, rfl⟩
    refine map_updateWhere (fun c : CredentialRow => c.id) (fun c => ?_) s.credentials
    rfl
  | revoked =>
    refine ⟨?_, ?_, ?_, ?_, rfl, rfl, rfl⟩
    · refine map_updateWhere (fun a : SessionRow => a.id) (fun a => ?_) s.sessions
      rfl
    · refine map_updateWhere (fun c : CredentialRow => c.id) (fun c => ?_) s.credentials
      rfl
    · refine map_updateWhere (fun r : RotationRow => r.id) (fun r => ?_) s.rotations
      rfl
    · refine map_updateWhere (fun f : FamilyRow => f.id) (fun f => ?_) s.families
      rfl

/-- A call that fails has issued nothing. An exchange leaves at most the expiry of the authorization
or the time of its next poll; a rotation adds no row and leaves at most the credential marked as
expired, or its whole family revoked. -/
theorem failed_calls_issue_nothing (C : Crates) (drawn : Drawn) (masterKey : String)
    (policy : DeviceSessionPolicy) (now : Int) (faults : Faults) (n n' : Nat) (s s' : Store)
    (e : DeviceSessionError) :
    (∀ input, exchangeAuthorization C drawn masterKey policy now input faults n s =
        (n', s', .error e) →
      s'.devices = s.devices ∧ s'.families = s.families ∧ s'.sessions = s.sessions ∧
        s'.credentials = s.credentials ∧ s'.rotations = s.rotations ∧ s'.users = s.users ∧
        ExchangeLeaves s (hashDeviceToken C input.deviceCode) policy.serverInstanceId now s') ∧
    (∀ input, rotateRefreshToken C drawn masterKey policy now input faults n s =
        (n', s', .error e) →
      s'.sessions.map (·.id) = s.sessions.map (·.id) ∧
        s'.credentials.map (·.id) = s.credentials.map (·.id) ∧
        s'.rotations.map (·.id) = s.rotations.map (·.id) ∧
        s'.families.map (·.id) = s.families.map (·.id) ∧ s'.devices = s.devices ∧
        s'.authorizations = s.authorizations ∧ s'.users = s.users ∧
        (s' = s ∨ s' = s.expireCredential (hashDeviceToken C input.refreshToken) (timestamp now) ∨
          ∃ row reason erases, s.findRefresh (hashDeviceToken C input.refreshToken) = some row ∧
            s' = s.revokedFamily row input.generation (timestamp now) reason erases ∧
            s'.Revoked row.familyId)) := by
  constructor
  · intro input hrun
    have hleaves := exchangeAuthorization_concludes.error hrun
    obtain ⟨hdevices, hfamilies, hsessions, hcredentials, hrotations, husers⟩ := hleaves.tables
    exact ⟨hdevices, hfamilies, hsessions, hcredentials, hrotations, husers, hleaves⟩
  · intro input hrun
    have hleaves := rotateRefreshToken_concludes.error hrun
    obtain ⟨hsessions, hcredentials, hrotations, hfamilies, hdevices, hauthorizations, husers⟩ :=
      hleaves.rows
    refine ⟨hsessions, hcredentials, hrotations, hfamilies, hdevices, hauthorizations, husers, ?_⟩
    cases hleaves with
    | nothing => exact .inl rfl
    | expired => exact .inr (.inl rfl)
    | revoked hrow hone =>
      exact .inr (.inr ⟨_, _, _, hrow, rfl, Store.revokedFamily_revoked hone⟩)

def plainCrates : Crates where
  sha256 := .const
  secrets := { aead := .plain, storageKey := fun _ => .fill 32 0 }
  parseUuid := some
  encodeCredentials _ := ""
  decodeCredentials _ := none

def drawnOnce : Drawn where
  deviceId := "D2"
  familyId := "F2"
  sessionId := "S2"
  credentialId := "R2"
  rotationId := "T2"
  accessEntropy := .fill 32 1
  refreshEntropy := .fill 32 2
  nonce := .fill 12 0

def quarterHour : DeviceSessionPolicy where
  serverInstanceId := "server"
  authorizationTtlSeconds := 600
  accessTtlSeconds := 900
  refreshSlidingTtlSeconds := 3600
  refreshAbsoluteTtlSeconds := 7200
  idempotencyTtlSeconds := 900
  pollIntervalSeconds := 5

/-- A family whose first generation was rotated under the transaction `first`. -/
def rotatedOnce : Store where
  users := [⟨1, "active"⟩]
  authorizations := []
  devices := [⟨"D", 1, "server", "laptop", "A", "linux", "1", .active, 1, ⟨0⟩, ⟨0⟩⟩]
  families := [⟨"F", "A", "D", 1, "server", .active, 1, ⟨3600⟩, ⟨7200⟩, none, "", ⟨0⟩⟩]
  sessions := [⟨"S", "hash", "F", "D", 1, "server", 1, deviceAccessIssuer, deviceAccessAudience,
    .active, 1, ⟨900⟩, ⟨0⟩, none, "", ⟨0⟩⟩]
  credentials := [⟨"R", hashDeviceToken plainCrates "", "F", "D", 1, "server", 0,
    deviceAccessIssuer, deviceRefreshAudience, .rotated, ⟨3600⟩, some ⟨0⟩, none, "", ⟨0⟩⟩]
  rotations := [⟨"T", "F", "D", 1, "server", 0, "hash", "first", .completed, "v1", ⟨900⟩, ⟨0⟩⟩]
  familyIds := by decide

/-- The first generation once more, under another transaction. -/
def replay : RotateRefreshInput where
  refreshToken := issueToken deviceRefreshTokenHead (.fill 32 0)
  generation := 0
  transactionId := "second"
  deviceId := "D"
  serverInstanceId := "server"

theorem failed_calls_issue_nothing_replay :
    let left := rotateRefreshToken plainCrates drawnOnce "key" quarterHour 60000000000 replay
      (fun _ => false) 0 rotatedOnce
    left.2.2 = .error .refreshReplay ∧ left.2.1.sessions.map (·.id) = ["S"] := by
  intro left
  have herror : left.2.2 = .error .refreshReplay := by decide +kernel
  have hrun : rotateRefreshToken plainCrates drawnOnce "key" quarterHour 60000000000 replay
      (fun _ => false) 0 rotatedOnce = (left.1, left.2.1, .error .refreshReplay) :=
    Prod.ext rfl (Prod.ext rfl herror)
  exact ⟨herror, ((failed_calls_issue_nothing plainCrates drawnOnce "key" quarterHour 60000000000
    (fun _ => false) 0 left.1 rotatedOnce left.2.1 .refreshReplay).2 replay hrun).1⟩

end Sessions
end Devices
end Yuance
