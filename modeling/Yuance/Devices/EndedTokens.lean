import Yuance.Devices.Rotations

/-!
# Yuance.Devices.EndedTokens

The tokens of families that are over. A token has one row, whatever the calls do, and while the
family of that row is over the token is refused.

* `TokensUnique`: `access_token_hash` and `refresh_token_hash` are unique.
* `Ended`: the rows of a token belong to families that are over.
-/

namespace Yuance
namespace Devices
namespace Sessions

open Lib Platform

section Served

variable {S : Server} {t u : Tables} {e : Event} {out : Outcome}

theorem SessionKept.hash (a b : SessionRow) (h : SessionKept a b) :
    b.accessTokenHash = a.accessTokenHash := h.accessTokenHash

theorem CredentialKept.hash (a b : CredentialRow) (h : CredentialKept a b) :
    b.refreshTokenHash = a.refreshTokenHash := h.refreshTokenHash

theorem serve_sessions (hserve : serve S t e = some (u, out)) :
    Grown SessionKept SessionRow.accessTokenHash t.store.sessions u.store.sessions := by
  cases serve_cases hserve with
  | calm hcalm _ => exact .kept hcalm.sessions
  | exchanged _ _ _ hyields =>
    cases hyields with
    | recovered _ _ _ _ => exact .kept (rows_refl .refl _)
    | issued _ _ _ hgate _ _ _ _ _ _ hsession _ =>
      exact .added hgate.quiet.sessions hsession.accessTokenHash
  | @rotated _ input _ _ _ _ _ hyields =>
    cases hyields with
    | recovered _ _ _ _ _ => exact .kept (rows_refl .refl _)
    | @issued row _ _ _ _ _ _ _ _ _ hsession _ =>
      have hquiet : Quiet t.store (t.store.ended row.familyId input.generation
        (hashDeviceToken S.crates input.refreshToken) (timestamp e.now)) := quiet_ended _ _ _ _
      exact .added hquiet.sessions hsession.accessTokenHash

theorem serve_credentials (hserve : serve S t e = some (u, out)) :
    Grown CredentialKept CredentialRow.refreshTokenHash t.store.credentials
      u.store.credentials := by
  cases serve_cases hserve with
  | calm hcalm _ => exact .kept hcalm.credentials
  | exchanged _ _ _ hyields =>
    cases hyields with
    | recovered _ _ _ _ => exact .kept (rows_refl .refl _)
    | issued _ _ _ hgate _ _ _ _ _ _ _ hcredential =>
      exact .added hgate.quiet.credentials hcredential.refreshTokenHash
  | @rotated _ input _ _ _ _ _ hyields =>
    cases hyields with
    | recovered _ _ _ _ _ => exact .kept (rows_refl .refl _)
    | @issued row _ _ _ _ _ _ _ _ _ _ hcredential =>
      have hquiet : Quiet t.store (t.store.ended row.familyId input.generation
        (hashDeviceToken S.crates input.refreshToken) (timestamp e.now)) := quiet_ended _ _ _ _
      exact .added hquiet.credentials hcredential.refreshTokenHash

end Served

/-! ## Tokens -/

/-- `access_token_hash TEXT NOT NULL UNIQUE` and `refresh_token_hash TEXT NOT NULL UNIQUE`. -/
structure TokensUnique (s : Store) : Prop where
  access : (s.sessions.map (·.accessTokenHash)).Nodup
  refresh : (s.credentials.map (·.refreshTokenHash)).Nodup

/-- The hash is that of rows whose families are over. -/
structure Ended {α : Type} (hash family : α → String) (s : Store) (rows : List α) (h : String) :
    Prop where
  mem : h ∈ rows.map hash
  family : ∀ a ∈ rows, hash a = h → Over s (family a)

abbrev AccessEnded (s : Store) (h : String) : Prop :=
  Ended SessionRow.accessTokenHash SessionRow.familyId s s.sessions h

abbrev RefreshEnded (s : Store) (h : String) : Prop :=
  Ended CredentialRow.refreshTokenHash CredentialRow.familyId s s.credentials h

section Tokens

variable {S : Server} {s s' : Store} {t u : Tables} {e : Event} {out : Outcome} {h : String}

/-- The families of the rows of a hash are over behind a step. -/
theorem Ended.behind {α : Type} {R : α → α → Prop} {hash family : α → String} {rows rows' : List α}
    (hgrown : Grown R hash rows rows') (hhash : ∀ a b, R a b → hash b = hash a)
    (hfamily : ∀ a b, R a b → family b = family a) (hmem : h ∈ rows.map hash)
    (hover : ∀ a ∈ rows, hash a = h → Over s' (family a)) : Ended hash family s' rows' h where
  mem := hgrown.keys hhash hmem
  family b hb heq := by
    obtain ⟨a, ha, hkept⟩ := hgrown.origin hhash hb (heq ▸ hmem)
    rw [hfamily a b hkept]
    exact hover a ha ((hhash a b hkept).symm.trans heq)

/-- Behind a step that ends the family of a row, its hash is over. -/
theorem Ended.of_row {α : Type} {R : α → α → Prop} {hash family : α → String} {rows rows' : List α}
    {a : α} (hnodup : (rows.map hash).Nodup) (ha : a ∈ rows) (hgrown : Grown R hash rows rows')
    (hhash : ∀ a b, R a b → hash b = hash a) (hfamily : ∀ a b, R a b → family b = family a)
    (hover : Over s' (family a)) : Ended hash family s' rows' (hash a) := by
  refine .behind hgrown hhash hfamily (List.mem_map_of_mem ha) fun b hb heq => ?_
  rw [eq_of_key hnodup hb ha heq]
  exact hover

theorem Ended.grown {α : Type} {R : α → α → Prop} {hash family : α → String} {rows rows' : List α}
    (hended : Ended hash family s rows h) (hgrown : Grown R hash rows rows')
    (hhash : ∀ a b, R a b → hash b = hash a) (hfamily : ∀ a b, R a b → family b = family a)
    (hover : ∀ familyId, Over s familyId → Over s' familyId) :
    Ended hash family s' rows' h :=
  .behind hgrown hhash hfamily hended.mem fun a ha heq => hover _ (hended.family a ha heq)

theorem TokensUnique.quiet (hunique : TokensUnique s) (hquiet : Quiet s s') : TokensUnique s' where
  access := (Grown.kept hquiet.sessions).nodup SessionKept.hash hunique.access
  refresh := (Grown.kept hquiet.credentials).nodup CredentialKept.hash hunique.refresh

theorem TokensUnique.served (hunique : TokensUnique t.store)
    (hserve : serve S t e = some (u, out)) : TokensUnique u.store where
  access := (serve_sessions hserve).nodup SessionKept.hash hunique.access
  refresh := (serve_credentials hserve).nodup CredentialKept.hash hunique.refresh

theorem AccessEnded.quiet (hended : AccessEnded s h) (hquiet : Quiet s s') : AccessEnded s' h :=
  hended.grown (.kept hquiet.sessions) SessionKept.hash (fun _ _ hkept => hkept.familyId)
    fun _ hover => hover.quiet hquiet

theorem AccessEnded.served (hended : AccessEnded t.store h)
    (hserve : serve S t e = some (u, out)) : AccessEnded u.store h :=
  hended.grown (serve_sessions hserve) SessionKept.hash (fun _ _ hkept => hkept.familyId)
    fun _ hover => hover.served hserve

theorem RefreshEnded.quiet (hended : RefreshEnded s h) (hquiet : Quiet s s') : RefreshEnded s' h :=
  hended.grown (.kept hquiet.credentials) CredentialKept.hash (fun _ _ hkept => hkept.familyId)
    fun _ hover => hover.quiet hquiet

theorem RefreshEnded.served (hended : RefreshEnded t.store h)
    (hserve : serve S t e = some (u, out)) : RefreshEnded u.store h :=
  hended.grown (serve_credentials hserve) CredentialKept.hash (fun _ _ hkept => hkept.familyId)
    fun _ hover => hover.served hserve

theorem Over.not_found {familyId : String} {f : FamilyRow} (hover : Over s familyId)
    (hfind : s.families.find? (·.id == familyId) = some f) : f.status ≠ .active := by
  have hid := List.find?_some hfind
  exact hover.status f (List.mem_of_find?_eq_some hfind) (eq_of_beq hid)

/-- A revocation that answers has ended the family. -/
theorem revokeFamilyForUser_over {now userId : Int} {familyId reason : String} :
    Concludes (revokeFamilyForUser now userId familyId reason) t
      (fun u _ => Over u.store familyId) fun _ _ => True := by
  unfold revokeFamilyForUser onStore inTransaction revokeFamilyInTransaction
  refine Concludes.zoom (Concludes.atomically trivial (fun _ _ => trivial) ?_)
  refine update_bind (fun _ => trivial) ?_
  split
  · exact Concludes.select_bind (fun _ => trivial) (Concludes.fail fun _ => trivial)
  · rename_i hone
    obtain ⟨f, hf⟩ := List.exists_mem_of_length_pos (Nat.lt_of_lt_of_eq Nat.one_pos
      (not_not.mp hone).symm)
    obtain ⟨hmem, hrevocable⟩ := List.mem_filter.mp hf
    have hid : f.id = familyId := eq_of_beq
      (Bool.and_eq_true_iff.mp (Bool.and_eq_true_iff.mp hrevocable).1).1
    refine Concludes.execute_bind (fun _ => trivial) ?_
    refine Concludes.statement (fun _ => trivial) (fun _ _ _ => trivial) fun _ _ => ?_
    refine ⟨?_, fun g' hg' hsame => ?_⟩
    · exact List.mem_map.mpr ⟨_, mem_updateWhere.mpr ⟨f, hmem, (if_pos hrevocable).symm⟩, hid⟩
    · obtain ⟨g, hg, rfl⟩ := mem_updateWhere.mp hg'
      split at hsame
      · rename_i hp
        rw [if_pos hp]
        exact fun hactive => by cases hactive
      · rename_i hp
        rw [eq_of_key t.store.familyIds hg hmem (hsame.trans hid.symm)] at hp
        exact absurd hrevocable hp

theorem revoke_over {userId : Int} {familyId reason : String} {answer : Answer}
    (hcall : e.call = .revoke userId familyId reason)
    (hserve : serve S t e = some (u, .ok answer)) : Over u.store familyId := by
  unfold serve at hserve
  rw [hcall] at hserve
  rcases hrun : (Call.revoke userId familyId reason).transaction S e.now e.faults 0 t with
    ⟨n, left, result⟩
  rw [hrun] at hserve
  cases hserve
  have hconcludes : Concludes ((Call.revoke userId familyId reason).transaction S e.now) t
      (fun u _ => Over u.store familyId) fun _ _ => True :=
    Concludes.bind revokeFamilyForUser_over fun _ _ h => Concludes.done h
  exact hconcludes.ok hrun

/-- An access token that is over is refused. -/
theorem AccessEnded.refused {rawToken serverInstanceId : String}
    (hended : AccessEnded t.store (hashDeviceToken S.crates rawToken))
    (hcall : e.call = .authenticate rawToken serverInstanceId)
    (hserve : serve S t e = some (u, out)) (access : AuthenticatedDeviceAccess) :
    out ≠ .ok (.access access) := by
  rintro rfl
  unfold serve at hserve
  rw [hcall] at hserve
  rcases hrun : (Call.authenticate rawToken serverInstanceId).transaction S e.now e.faults 0 t with
    ⟨n, left, result⟩
  rw [hrun] at hserve
  cases hserve
  have hconcludes : Concludes ((Call.authenticate rawToken serverInstanceId).transaction S e.now) t
      (fun _ answer => ∃ access, answer = .access access ∧ ∃ a ∈ t.store.sessions,
        AccessOf S.crates t rawToken access a) fun _ _ => True :=
    Concludes.bind authenticateAccessToken_session fun _ access ha =>
      Concludes.done ⟨access, rfl, ha⟩
  obtain ⟨_, _, a, ha, hhash, f, hfind, hactive, _⟩ := hconcludes.ok hrun
  exact (hended.family a ha hhash).not_found hfind hactive

/-- A refresh token that is over is refused. -/
theorem RefreshEnded.refused {drawn : Drawn} {input : RotateRefreshInput}
    (hended : RefreshEnded t.store (hashDeviceToken S.crates input.refreshToken))
    (hcall : e.call = .rotate drawn input) (hserve : serve S t e = some (u, out))
    (credentials : Credentials) : out ≠ .ok (.credentials credentials) := by
  rintro rfl
  have refuse : ∀ row,
      t.store.findRefresh (hashDeviceToken S.crates input.refreshToken) = some row →
        requireUsable S.policy row input.generation input.deviceId = .ok () → False := by
    intro row hrow husable
    obtain ⟨c, f, d, user, hjoins⟩ := Store.findRefresh_joins hrow
    have hhash := List.find?_some hjoins.credential
    have hover := hended.family c (List.mem_of_find?_eq_some hjoins.credential) (eq_of_beq hhash)
    exact hover.not_found hjoins.family
      (hjoins.familyStatus ▸ (requireUsable_eq_ok.mp husable).familyStatus)
  cases serve_cases hserve with
  | calm _ hnone => exact hnone credentials rfl
  | exchanged hexchange _ _ _ =>
    rw [hcall] at hexchange
    cases hexchange
  | rotated hrotate _ hyields =>
    rw [hcall] at hrotate
    cases hrotate
    cases hyields with
    | recovered hrow husable _ _ _ => exact refuse _ hrow husable
    | issued hrow husable _ _ _ _ _ _ => exact refuse _ hrow husable

end Tokens

end Sessions
end Devices
end Yuance
