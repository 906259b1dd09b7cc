import Yuance.Devices.Generations
import Yuance.Lib.Json

/-!
# Yuance.Devices.Chains

Only the newest generation of a family is usable. The generations of a family are a chain, which a
rotation makes longer by one; every other call leaves it and can only end what is in use.

* `Chain`: the rows of a family whose newest generation is `n`.
* `serve_chained`: every call keeps the chains.
* `only_newest_usable`: every reachable state.
-/

namespace Yuance
namespace Devices
namespace Sessions

open Lib Platform

/-! ## Chains -/

/-- `0, 1, .., n - 1`. -/
def generationsBelow (n : Nat) : List Int := (List.range n).map Nat.cast

theorem generationsBelow_succ (n : Nat) :
    generationsBelow (n + 1) = generationsBelow n ++ [(n : Int)] := by
  unfold generationsBelow
  rw [List.range_succ, List.map_append]
  rfl

/-- The generations of a family are `0` to `n`, each but the last was rotated once, and only what
belongs to the last is in use. -/
structure Chain (s : Store) (familyId : String) (n : Nat) : Prop where
  credentials : group CredentialRow.familyId CredentialRow.generation s.credentials familyId =
    generationsBelow (n + 1)
  sessions : group SessionRow.familyId SessionRow.generation s.sessions familyId =
    generationsBelow (n + 1)
  rotations : group RotationRow.familyId RotationRow.sourceGeneration s.rotations familyId =
    generationsBelow n
  credential : ∀ c ∈ s.credentials, c.familyId = familyId → c.status = .active → c.generation = n
  session : ∀ a ∈ s.sessions, a.familyId = familyId → a.status = .active → a.generation = n

/-- The rows belong to families (`REFERENCES device_credential_families`), and the generations of
each family are a chain. -/
structure Chained (s : Store) : Prop where
  credential : ∀ c ∈ s.credentials, c.familyId ∈ s.families.map (·.id)
  session : ∀ a ∈ s.sessions, a.familyId ∈ s.families.map (·.id)
  rotation : ∀ r ∈ s.rotations, r.familyId ∈ s.families.map (·.id)
  chain : ∀ familyId ∈ s.families.map (·.id), ∃ n, Chain s familyId n

section Chains

variable {s s' : Store} {familyId : String} {n : Nat}

theorem Quiet.familyIds (h : Quiet s s') :
    s'.families.map (·.id) = s.families.map (·.id) :=
  rows_column (fun _ _ hkept => hkept.id) h.families

theorem Chain.quiet (h : Chain s familyId n) (hquiet : Quiet s s') : Chain s' familyId n where
  credentials :=
    (rows_group (fun _ _ hkept => hkept.familyId) (fun _ _ hkept => hkept.generation)
      hquiet.credentials familyId).trans h.credentials
  sessions :=
    (rows_group (fun _ _ hkept => hkept.familyId) (fun _ _ hkept => hkept.generation)
      hquiet.sessions familyId).trans h.sessions
  rotations :=
    (rows_group (fun _ _ hkept => hkept.familyId) (fun _ _ hkept => hkept.sourceGeneration)
      hquiet.rotations familyId).trans h.rotations
  credential c hc hfamily hactive := by
    obtain ⟨c', hc', hkept⟩ := rows_origin hquiet.credentials hc
    rw [hkept.generation]
    exact h.credential c' hc' (hkept.familyId.symm.trans hfamily) (hkept.live hactive)
  session a ha hfamily hactive := by
    obtain ⟨a', ha', hkept⟩ := rows_origin hquiet.sessions ha
    rw [hkept.generation]
    exact h.session a' ha' (hkept.familyId.symm.trans hfamily) (hkept.live hactive)

theorem Chained.quiet (h : Chained s) (hquiet : Quiet s s') : Chained s' where
  credential c hc := by
    obtain ⟨c', hc', hkept⟩ := rows_origin hquiet.credentials hc
    rw [hkept.familyId, hquiet.familyIds]
    exact h.credential c' hc'
  session a ha := by
    obtain ⟨a', ha', hkept⟩ := rows_origin hquiet.sessions ha
    rw [hkept.familyId, hquiet.familyIds]
    exact h.session a' ha'
  rotation r hr := by
    obtain ⟨r', hr', hkept⟩ := rows_origin hquiet.rotations hr
    rw [hkept.familyId, hquiet.familyIds]
    exact h.rotation r' hr'
  chain familyId hfamily := by
    rw [hquiet.familyIds] at hfamily
    obtain ⟨n, hchain⟩ := h.chain familyId hfamily
    exact ⟨n, hchain.quiet hquiet⟩

/-- New rows of one family leave the other families. -/
theorem Chain.others {a : SessionRow} {c : CredentialRow} {rotations : List RotationRow}
    (h : Chain s familyId n) (hsessions : s'.sessions = s.sessions ++ [a])
    (hcredentials : s'.credentials = s.credentials ++ [c])
    (hrotations : s'.rotations = s.rotations ++ rotations) (ha : a.familyId ≠ familyId)
    (hc : c.familyId ≠ familyId) (hr : ∀ r ∈ rotations, r.familyId ≠ familyId) :
    Chain s' familyId n where
  credentials := by
    rw [hcredentials, group_append_other hc]
    exact h.credentials
  sessions := by
    rw [hsessions, group_append_other ha]
    exact h.sessions
  rotations := by
    rw [hrotations]
    unfold group
    rw [List.filter_append, List.filter_eq_nil_iff.mpr fun r hmem heq => hr r hmem (eq_of_beq heq),
      List.append_nil]
    exact h.rotations
  credential c' hc' hfamily hactive := by
    rw [hcredentials] at hc'
    rcases List.mem_append.mp hc' with hold | hnew
    · exact h.credential c' hold hfamily hactive
    · rw [List.mem_singleton.mp hnew] at hfamily
      exact absurd hfamily hc
  session a' ha' hfamily hactive := by
    rw [hsessions] at ha'
    rcases List.mem_append.mp ha' with hold | hnew
    · exact h.session a' hold hfamily hactive
    · rw [List.mem_singleton.mp hnew] at hfamily
      exact absurd hfamily ha

/-- The first generation of a family that had no rows. -/
theorem Chain.first {a : SessionRow} {c : CredentialRow}
    (hnone : familyId ∉ s.families.map (·.id)) (h : Chained s)
    (hsessions : s'.sessions = s.sessions ++ [a])
    (hcredentials : s'.credentials = s.credentials ++ [c])
    (hrotations : s'.rotations = s.rotations) (ha : a.familyId = familyId)
    (hc : c.familyId = familyId) (hag : a.generation = 0) (hcg : c.generation = 0) :
    Chain s' familyId 0 where
  credentials := by
    rw [hcredentials, ← hc, group_append_same, hcg]
    unfold group
    rw [List.filter_eq_nil_iff.mpr]
    · rfl
    · intro c' hc' heq
      exact hnone (hc ▸ eq_of_beq heq ▸ h.credential c' hc')
  sessions := by
    rw [hsessions, ← ha, group_append_same, hag]
    unfold group
    rw [List.filter_eq_nil_iff.mpr]
    · rfl
    · intro a' ha' heq
      exact hnone (ha ▸ eq_of_beq heq ▸ h.session a' ha')
  rotations := by
    rw [hrotations]
    unfold group
    rw [List.filter_eq_nil_iff.mpr]
    · rfl
    · intro r hr heq
      exact hnone (eq_of_beq heq ▸ h.rotation r hr)
  credential c' hc' hfamily _ := by
    rw [hcredentials] at hc'
    rcases List.mem_append.mp hc' with hold | hnew
    · exact absurd (hfamily ▸ h.credential c' hold) hnone
    · rw [List.mem_singleton.mp hnew, hcg]
      rfl
  session a' ha' hfamily _ := by
    rw [hsessions] at ha'
    rcases List.mem_append.mp ha' with hold | hnew
    · exact absurd (hfamily ▸ h.session a' hold) hnone
    · rw [List.mem_singleton.mp hnew, hag]
      rfl

/-- One generation more, where nothing of the family is in use. -/
theorem Chain.next {a : SessionRow} {c : CredentialRow} {r : RotationRow} (h : Chain s familyId n)
    (hsessions : s'.sessions = s.sessions ++ [a])
    (hcredentials : s'.credentials = s.credentials ++ [c])
    (hrotations : s'.rotations = s.rotations ++ [r]) (ha : a.familyId = familyId)
    (hc : c.familyId = familyId) (hr : r.familyId = familyId) (hag : a.generation = n + 1)
    (hcg : c.generation = n + 1) (hrg : r.sourceGeneration = n)
    (hcredential : ∀ c ∈ s.credentials, c.familyId = familyId → c.status ≠ .active)
    (hsession : ∀ a ∈ s.sessions, a.familyId = familyId → a.status ≠ .active) :
    Chain s' familyId (n + 1) where
  credentials := by
    rw [hcredentials, generationsBelow_succ, ← h.credentials, ← hc, group_append_same, hcg]
    rfl
  sessions := by
    rw [hsessions, generationsBelow_succ, ← h.sessions, ← ha, group_append_same, hag]
    rfl
  rotations := by
    rw [hrotations, generationsBelow_succ, ← h.rotations, ← hr, group_append_same, hrg]
  credential c' hc' hfamily hactive := by
    rw [hcredentials] at hc'
    rcases List.mem_append.mp hc' with hold | hnew
    · exact absurd hactive (hcredential c' hold hfamily)
    · rw [List.mem_singleton.mp hnew, hcg]
      rfl
  session a' ha' hfamily hactive := by
    rw [hsessions] at ha'
    rcases List.mem_append.mp ha' with hold | hnew
    · exact absurd hactive (hsession a' hold hfamily)
    · rw [List.mem_singleton.mp hnew, hag]
      rfl

end Chains

/-! ## What the calls do to the chains -/

theorem Gated.quiet {s gate : Store} {row : AuthorizationRow} {now : Int}
    (h : Gated s row now gate) : Quiet s gate := by
  obtain ⟨p, nextPollAt, _, rfl⟩ := h
  exact Quiet.authorizations s _

section Steps

variable {C : Crates} {drawn : Drawn} {masterKey : String} {policy : DeviceSessionPolicy}
  {now : Int} {s s' : Store} {credentials : Credentials}

theorem ExchangeYields.chained {deviceCodeHash codeVerifier transactionId : String} (h : Chained s)
    (hyields : ExchangeYields C drawn masterKey policy now s deviceCodeHash codeVerifier
      transactionId s' credentials) : Chained s' := by
  cases hyields with
  | recovered _ _ _ _ => exact h
  | @issued row userId gate devices device deviceId ciphertext _ _ _ _ hgate _ hid _ _ hcredentials
      _ _ _ =>
    have hgated : Chained gate := h.quiet hgate.quiet
    have hmem : ∀ {f}, f ∈ gate.families.map (·.id) ∨ f = drawn.familyId →
        f ∈ (gate.families ++ [familyOf drawn policy now row credentials.deviceId userId]).map
          (·.id) := by
      intro f hf
      rw [List.map_append, List.mem_append]
      rcases hf with hold | rfl
      · exact .inl hold
      · exact .inr (List.mem_singleton.mpr rfl)
    have hfamily : credentials.familyId = drawn.familyId := by rw [hcredentials]; rfl
    have hgeneration : credentials.generation = 0 := by rw [hcredentials]; rfl
    constructor
    · intro c hc
      refine hmem ?_
      rcases List.mem_append.mp hc with hold | hnew
      · exact .inl (hgated.credential c hold)
      · rw [List.mem_singleton.mp hnew]
        exact .inr hfamily
    · intro a ha
      refine hmem ?_
      rcases List.mem_append.mp ha with hold | hnew
      · exact .inl (hgated.session a hold)
      · rw [List.mem_singleton.mp hnew]
        exact .inr hfamily
    · exact fun r hr => hmem (.inl (hgated.rotation r hr))
    · intro familyId hmember
      by_cases hnew : familyId = drawn.familyId
      · refine ⟨0, ?_⟩
        rw [hnew]
        exact Chain.first hid hgated rfl rfl rfl hfamily hfamily hgeneration hgeneration
      · have hold : familyId ∈ gate.families.map (·.id) := by
          rcases List.mem_append.mp (List.map_append ▸ hmember) with hold | hsame
          · exact hold
          · exact absurd (List.mem_singleton.mp hsame) hnew
        obtain ⟨n, hchain⟩ := hgated.chain familyId hold
        refine ⟨n, hchain.others rfl rfl (List.append_nil _).symm ?_ ?_ fun r hr => by cases hr⟩
        · exact fun heq => hnew (heq.symm.trans hfamily)
        · exact fun heq => hnew (heq.symm.trans hfamily)

theorem quiet_ended (familyId : String) (sourceGeneration : Int) (sourceRefreshTokenHash : String)
    (now : Stamp) : Quiet s (s.ended familyId sourceGeneration sourceRefreshTokenHash now) :=
  Quiet.trans (Quiet.rotateCredential _ _) (Quiet.revokeSessions _ _ _)

/-- The sessions that were in use are those of the generation that is rotated. -/
theorem Chain.ended {familyId sourceRefreshTokenHash : String} {n : Nat} (h : Chain s familyId n)
    (now : Stamp) :
    ∀ a ∈ (s.ended familyId n sourceRefreshTokenHash now).sessions, a.familyId = familyId →
      a.status ≠ .active := by
  intro a ha hfamily hactive
  obtain ⟨a', ha', rfl⟩ := mem_updateWhere.mp ha
  split at hactive
  · cases hactive
  · rename_i hnot
    rw [if_neg hnot] at hfamily
    refine hnot ?_
    dsimp only
    rw [hfamily, hactive, h.session a' ha' hfamily hactive, beq_self_eq_true, beq_self_eq_true]
    rfl

theorem RotationYields.chained {sourceRefreshTokenHash transactionId requestedDeviceId : String}
    {sourceGeneration : Int} (h : Chained s)
    (hyields : RotationYields C drawn masterKey policy now s sourceRefreshTokenHash sourceGeneration
      transactionId requestedDeviceId s' credentials) : Chained s' := by
  cases hyields with
  | recovered _ _ _ _ _ => exact h
  | @issued row refreshAbsoluteExpiresAt _ ciphertext hrow husable _ hactive hcredentials _ _
      hcredential =>
    obtain ⟨c, f, d, u, hjoins⟩ := Store.findRefresh_joins hrow
    have hmem := List.mem_of_find?_eq_some hjoins.credential
    have hfamily : row.familyId ∈ s.families.map (·.id) :=
      hjoins.familyId ▸ h.credential c hmem
    obtain ⟨n, hchain⟩ := h.chain row.familyId hfamily
    have hgeneration : sourceGeneration = n := by
      rw [← (requireUsable_eq_ok.mp husable).generation, hjoins.generation]
      exact hchain.credential c hmem hjoins.familyId.symm (hjoins.credentialStatus ▸ hactive)
    subst hgeneration
    have hquiet := quiet_ended (s := s) row.familyId n sourceRefreshTokenHash (timestamp now)
    have hended := h.quiet hquiet
    have hnewFamily : credentials.familyId = row.familyId := by rw [hcredentials]; rfl
    have hnewGeneration : credentials.generation = n + 1 := by rw [hcredentials]; rfl
    have hnewMember : credentials.familyId ∈ s.families.map (·.id) := by
      rw [hnewFamily]
      exact hfamily
    have hids : (s.rotated C drawn policy now row n transactionId sourceRefreshTokenHash ciphertext
        credentials).families.map (·.id) = s.families.map (·.id) := by
      refine map_updateWhere (fun f : FamilyRow => f.id) (fun f => ?_) s.families
      rfl
    have hold : ∀ familyId ∈ (s.ended row.familyId n sourceRefreshTokenHash
        (timestamp now)).families.map (·.id), familyId ∈ s.families.map (·.id) := fun _ hmem => hmem
    constructor
    · intro c' hc'
      rw [hids]
      rcases List.mem_append.mp hc' with hmem | hnew
      · exact hold _ (hended.credential c' hmem)
      · rw [List.mem_singleton.mp hnew]
        exact hnewMember
    · intro a ha
      rw [hids]
      rcases List.mem_append.mp ha with hmem | hnew
      · exact hold _ (hended.session a hmem)
      · rw [List.mem_singleton.mp hnew]
        exact hnewMember
    · intro r hr
      rw [hids]
      rcases List.mem_append.mp hr with hmem | hnew
      · exact hold _ (hended.rotation r hmem)
      · rw [List.mem_singleton.mp hnew]
        exact hfamily
    · intro familyId hmember
      rw [hids] at hmember
      by_cases hsame : familyId = row.familyId
      · rw [hsame]
        refine ⟨n + 1, (hchain.quiet hquiet).next rfl rfl rfl hnewFamily hnewFamily rfl
          hnewGeneration hnewGeneration rfl ?_ (hchain.ended (timestamp now))⟩
        exact fun c' hc' heq => hcredential.active c' hc' (heq.trans hnewFamily.symm)
      · obtain ⟨m, hother⟩ := h.chain familyId hmember
        refine ⟨m, (hother.quiet hquiet).others rfl rfl rfl ?_ ?_ ?_⟩
        · exact fun heq => hsame (heq.symm.trans hnewFamily)
        · exact fun heq => hsame (heq.symm.trans hnewFamily)
        · intro r hr heq
          rw [List.mem_singleton.mp hr] at heq
          exact hsame heq.symm

end Steps

theorem serve_chained {S : Server} {t t' : Tables} {e : Event} {out : Outcome}
    (h : Chained t.store) (hserve : serve S t e = some (t', out)) : Chained t'.store := by
  cases serve_cases hserve with
  | calm hcalm _ => exact h.quiet hcalm
  | exchanged _ _ _ hyields => exact hyields.chained h
  | rotated _ _ hyields => exact hyields.chained h

/-! ## Runs -/

/-- No device session yet. -/
structure Tables.Fresh (t : Tables) : Prop where
  authorizations : t.store.authorizations = []
  devices : t.store.devices = []
  families : t.store.families = []
  sessions : t.store.sessions = []
  credentials : t.store.credentials = []
  rotations : t.store.rotations = []
  reviews : t.reviews = []

theorem Tables.Fresh.chained {t : Tables} (h : t.Fresh) : Chained t.store where
  credential c hc := by
    rw [h.credentials] at hc
    cases hc
  session a ha := by
    rw [h.sessions] at ha
    cases ha
  rotation r hr := by
    rw [h.rotations] at hr
    cases hr
  chain familyId hfamily := by
    rw [h.families] at hfamily
    cases hfamily

/-- Some check of a token, at some time, returns the access. -/
def Authenticates (C : Crates) (t : Tables) (access : AuthenticatedDeviceAccess) : Prop :=
  ∃ rawToken serverInstanceId now faults n n' t',
    authenticateAccessToken C now rawToken serverInstanceId faults n t = (n', t', .ok access)

/-- The session that an access is read from. -/
def AccessOf (C : Crates) (t : Tables) (rawToken : String) (access : AuthenticatedDeviceAccess)
    (a : SessionRow) : Prop :=
  a.accessTokenHash = hashDeviceToken C rawToken ∧ ∃ f,
    t.store.families.find? (·.id == a.familyId) = some f ∧ f.status = .active ∧
    a.status = .active ∧ a.id = access.accessSessionId ∧ a.familyId = access.familyId ∧
      a.generation = access.generation

theorem authenticateAccessToken_session {C : Crates} {t : Tables} {now : Int}
    {rawToken serverInstanceId : String} :
    Concludes (authenticateAccessToken C now rawToken serverInstanceId) t
      (fun _ access => ∃ a ∈ t.store.sessions, AccessOf C t rawToken access a)
      fun _ _ => True := by
  unfold authenticateAccessToken
  refine Concludes.rejectIf_bind (fun _ => trivial) fun _ => ?_
  refine Concludes.atomically trivial (fun _ _ => trivial) ?_
  unfold authenticateAccessInTransaction
  refine Concludes.select_bind (fun _ => trivial) (Concludes.okOr_bind (fun _ _ => trivial) ?_)
  intro row hrow
  refine Concludes.ofExcept_bind (fun _ _ _ => trivial) fun _ hlive => ?_
  refine Concludes.ofExcept_bind (fun _ _ _ => trivial) fun expiresAt _ => ?_
  dsimp only
  split
  · exact Concludes.execute_bind (fun _ => trivial) (Concludes.fail fun _ => trivial)
  · refine Concludes.rejectIf_bind (fun _ _ => trivial) fun _ => ?_
    refine Concludes.execute_bind (fun _ => trivial) ?_
    refine Concludes.execute_bind (fun _ => trivial) ?_
    refine Concludes.done ?_
    unfold Tables.findAccess at hrow
    obtain ⟨a, ha, hrow⟩ := Option.bind_eq_some_iff.mp hrow
    obtain ⟨f, hf, hrow⟩ := Option.bind_eq_some_iff.mp hrow
    obtain ⟨d, _, hrow⟩ := Option.bind_eq_some_iff.mp hrow
    obtain ⟨u, _, hrow⟩ := Option.bind_eq_some_iff.mp hrow
    obtain ⟨profile, _, hrow⟩ := Option.bind_eq_some_iff.mp hrow
    cases hrow
    unfold requireLive at hlive
    obtain ⟨_, _, hlive⟩ := bind_eq_ok.mp hlive
    obtain ⟨_, _, hlive⟩ := bind_eq_ok.mp hlive
    obtain ⟨_, hfamily, hsession⟩ := bind_eq_ok.mp hlive
    have hkeys := List.find?_some ha
    have hhash := eq_of_beq (Bool.and_eq_true_iff.mp hkeys).1
    exact ⟨a, List.mem_of_find?_eq_some ha, hhash, f, hf,
      not_not.mp (rejectIf_eq_ok.mp hfamily), not_not.mp (rejectIf_eq_ok.mp hsession), rfl, rfl,
      rfl⟩

theorem Authenticates.session {C : Crates} {t : Tables} {access : AuthenticatedDeviceAccess}
    (h : Authenticates C t access) : ∃ a ∈ t.store.sessions, ∃ f,
      t.store.families.find? (·.id == a.familyId) = some f ∧ f.status = .active ∧
      a.status = .active ∧ a.id = access.accessSessionId ∧ a.familyId = access.familyId ∧
        a.generation = access.generation := by
  obtain ⟨rawToken, serverInstanceId, now, faults, n, n', t', hrun⟩ := h
  obtain ⟨a, ha, _, hof⟩ := authenticateAccessToken_session.ok hrun
  exact ⟨a, ha, hof⟩

/-- Of the family, only the generation `n` is usable. -/
structure OnlyNewest (C : Crates) (t : Tables) (familyId : String) (n : Nat) : Prop where
  generations : group CredentialRow.familyId CredentialRow.generation t.store.credentials familyId =
    generationsBelow (n + 1)
  active : ∀ c ∈ t.store.credentials, c.familyId = familyId → c.status = .active → c.generation = n
  oneActive : ∀ c ∈ t.store.credentials, ∀ c' ∈ t.store.credentials, c.familyId = familyId →
    c'.familyId = familyId → c.status = .active → c'.status = .active → c = c'
  rotations : group RotationRow.familyId RotationRow.sourceGeneration t.store.rotations familyId =
    generationsBelow n
  access : ∀ access, Authenticates C t access → access.familyId = familyId → access.generation = n
  oneSession : ∀ access access', Authenticates C t access → Authenticates C t access' →
    access.familyId = familyId → access'.familyId = familyId →
      access.accessSessionId = access'.accessSessionId

theorem generationsBelow_nodup (n : Nat) : (generationsBelow n).Nodup :=
  List.nodup_range.map Nat.cast_injective

theorem Chain.onlyNewest {C : Crates} {t : Tables} {familyId : String} {n : Nat}
    (h : Chain t.store familyId n) : OnlyNewest C t familyId n where
  generations := h.credentials
  active := h.credential
  oneActive c hc c' hc' hfamily hfamily' hactive hactive' := by
    refine eq_of_group (h.credentials ▸ generationsBelow_nodup (n + 1)) hc hc' hfamily hfamily' ?_
    rw [h.credential c hc hfamily hactive, h.credential c' hc' hfamily' hactive']
  rotations := h.rotations
  access access haccess hfamily := by
    obtain ⟨a, ha, _, _, _, hactive, _, hsame, hgeneration⟩ := haccess.session
    rw [← hgeneration]
    exact h.session a ha (hsame.trans hfamily) hactive
  oneSession access access' haccess haccess' hfamily hfamily' := by
    obtain ⟨a, ha, _, _, _, hactive, hid, hsame, _⟩ := haccess.session
    obtain ⟨a', ha', _, _, _, hactive', hid', hsame', _⟩ := haccess'.session
    have hfamily := hsame.trans hfamily
    have hfamily' := hsame'.trans hfamily'
    have heq : a = a' := by
      refine eq_of_group (h.sessions ▸ generationsBelow_nodup (n + 1)) ha ha' hfamily hfamily' ?_
      rw [h.session a ha hfamily hactive, h.session a' ha' hfamily' hactive']
    rw [← hid, ← hid', heq]

/-- In every state that is reached from empty tables, the refresh credentials of each family have
the generations `0` to `n`, only that of the generation `n` may be active, each generation before it
has one rotation, and only one session, of the generation `n`, can be used. -/
theorem only_newest_usable (S : Server) {t₀ t : Tables} {tr : List (Entry Tables Event Outcome)}
    (hfresh : t₀.Fresh) (hrun : Run (serve S) t₀ tr t) :
    ∀ f ∈ t.store.families, ∃ n, OnlyNewest S.crates t f.id n := by
  have hchained : Chained t.store := by
    refine Run.invariant (C := fun _ _ => True) (I := fun t => Chained t.store) hfresh.chained ?_
      hrun fun _ _ => trivial
    exact fun _ _ _ _ hchained _ hserve => serve_chained hchained hserve
  intro f hf
  obtain ⟨n, hchain⟩ := hchained.chain f.id (List.mem_map_of_mem hf)
  exact ⟨n, hchain.onlyNewest⟩

/-! ### A run -/

def credentialsJson (c : Credentials) : Json :=
  .arr [.str c.accessToken, .str c.refreshToken, .str c.deviceId, .str c.familyId, .num c.userId,
    .num c.generation, .num c.authorizationVersion, .num c.issuedAt, .num c.accessExpiresAt,
    .num c.refreshExpiresAt, .num c.refreshAbsoluteExpiresAt, .str c.serverInstanceId]

def credentialsOfJson : Json → Option Credentials
  | .arr [.str accessToken, .str refreshToken, .str deviceId, .str familyId, .num userId,
      .num generation, .num authorizationVersion, .num issuedAt, .num accessExpiresAt,
      .num refreshExpiresAt, .num refreshAbsoluteExpiresAt, .str serverInstanceId] =>
    some
      { accessToken, refreshToken, deviceId, familyId, userId, generation, authorizationVersion
        issuedAt, accessExpiresAt, refreshExpiresAt, refreshAbsoluteExpiresAt, serverInstanceId }
  | _ => none

/-- Libraries to evaluate with; the digest is the text itself, cut to its length. -/
def spellingCrates : Crates where
  sha256 :=
    { hash := fun b => ((b ++ zeros 43).drop 11).take 32
      length_hash := by intro b; simp [zeros] }
  secrets := { aead := .plain, storageKey := fun _ => .fill 32 0 }
  parseUuid := some
  encodeCredentials c := Json.stringify (credentialsJson c)
  decodeCredentials source := (Json.parse source).bind credentialsOfJson

def upperCodes : UserCodes where
  toUppercase c := [c.toUpper]
  mac _ value := value

def sampleServer : Server where
  crates := spellingCrates
  userCodes := upperCodes
  masterKey := "sixteen characters"
  policy := quarterHour

/-- One user, and no device. -/
def oneUser : Tables where
  store :=
    { users := [⟨1, "active"⟩], authorizations := [], devices := [], families := [], sessions := []
      credentials := [], rotations := [], familyIds := by decide }
  reviews := []
  profiles := [⟨1, "alice", "Alice", false⟩]

def drawOf (n : UInt8) : StartDraw :=
  ⟨String.ofList [Char.ofNat (65 + n.toNat)], .fill 32 n, .fill 10 n⟩

def sampleVerifier : String := String.ofList (List.replicate 43 'v')

def sampleStart : StartAuthorizationInput where
  codeChallenge :=
    Base64.encode Base64.urlSafeNoPad (spellingCrates.sha256.hash (utf8 sampleVerifier))
  installationId := "laptop"
  deviceName := "Laptop"
  platform := "linux"
  clientVersion := "1"

def drawnOf (n : UInt8) : Drawn where
  deviceId := "D"
  familyId := String.ofList ['F', Char.ofNat (48 + n.toNat)]
  sessionId := String.ofList ['S', Char.ofNat (48 + n.toNat)]
  credentialId := String.ofList ['R', Char.ofNat (48 + n.toNat)]
  rotationId := String.ofList ['T', Char.ofNat (48 + n.toNat)]
  accessEntropy := .fill 32 n
  refreshEntropy := .fill 32 n
  nonce := .fill 12 0

/-- A second, counted in nanoseconds. -/
def atSecond (second : Int) (call : Call) : Event := ⟨call, seconds second, fun _ => false⟩

def exchangeOnce : ExchangeAuthorizationInput where
  deviceCode := (drawOf 0).deviceCode
  codeVerifier := sampleVerifier
  exchangeTransactionId := "exchange"

/-- The token of the `n`-th draw. -/
def rotateOnce (n : UInt8) (generation : Int) (transactionId : String) : RotateRefreshInput where
  refreshToken := issueToken deviceRefreshTokenHead (.fill 32 n)
  generation
  transactionId
  deviceId := "D"
  serverInstanceId := "server"

/-- A device is authorized, and its credentials are rotated. -/
def sampleRun : List Event :=
  [atSecond 60 (.start (fun i => drawOf (UInt8.ofNat i.val)) sampleStart),
    atSecond 70 (.approve "A" 1), atSecond 80 (.exchange (drawnOf 1) exchangeOnce),
    atSecond 90 (.rotate (drawnOf 2) (rotateOnce 1 0 "first"))]

theorem oneUser_fresh : oneUser.Fresh := ⟨rfl, rfl, rfl, rfl, rfl, rfl, rfl⟩

theorem sample_family_is_usable : ∃ tr t,
    exec (serve sampleServer) oneUser sampleRun = some (tr, t) ∧
      t.store.families.map (·.id) = ["F1"] ∧
      ∀ f ∈ t.store.families, ∃ n, OnlyNewest spellingCrates t f.id n := by
  have hfamilies : (exec (serve sampleServer) oneUser sampleRun).map
      (fun r => r.2.store.families.map (·.id)) = some ["F1"] := by decide +kernel
  obtain ⟨⟨tr, t⟩, hexec, hids⟩ := Option.map_eq_some_iff.mp hfamilies
  exact ⟨tr, t, hexec, hids, only_newest_usable sampleServer oneUser_fresh (run_of_exec hexec)⟩

end Sessions
end Devices
end Yuance
