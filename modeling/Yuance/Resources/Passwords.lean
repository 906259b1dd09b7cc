import Yuance.Resources.Store

/-!
# Yuance.Resources.Passwords

The password of a resource: what the three calls that set it leave in the row, and what the two
checks read of it. `create_resource` hashes the text as it is, `update_resource` and
`reset_resource_access_password` what is left of it without white space at its ends; a check
compares the text as it is.

* `createResource_hash`, `updateResource_hash`, `resetResourceAccessPassword_hash`: the hash that a
  call leaves.
* `set_password_unlocks`: which password opens the resource then.
* `access_token_opens_iff`: which token opens it.
-/

namespace Yuance
namespace Resources

open Lib Platform Files Projects

/-- A hash is the hash of one password, and no blank text. -/
structure Runtime.Lawful (R : Runtime) : Prop where
  verify_hash : ∀ {salt p hash}, R.hashPassword salt p = .ok hash →
    ∀ q, R.verifyPassword q hash = .ok (decide (q = p))
  hash_ne_blank : ∀ {salt p hash}, R.hashPassword salt p = .ok hash → trim hash ≠ ""

/-! ## The second check, and its token -/

def resourceAccessAad : Bytes := ascii "yuance:project-resource-access:v1"

def resourceAccessTtlSeconds : Int := 15 * 60

structure ResourceAccessGrant where
  resourceId : Int
  userId : Int
  passwordHash : String
  expiresAt : Int
  deriving DecidableEq, Repr

def ResourceAccessGrant.text (grant : ResourceAccessGrant) : String :=
  Json.stringify (.obj [("resource_id", .num grant.resourceId), ("user_id", .num grant.userId),
    ("password_hash", .str grant.passwordHash), ("expires_at", .num grant.expiresAt)])

/-- The condition under which the second check issues a token. -/
def passwordOpens (R : Runtime) (passwordHash password : String) : Except AppError Bool :=
  if trim password = "" then .ok false else R.verifyPassword password passwordHash

/-- `now` is the Unix time of the call. -/
def verifyResourcePasswordAndIssueAccessToken (R : Runtime) (P : SecretPrims)
    (nonce : FixedBytes 12) (now : Int) (s : Store) (masterKey : String)
    (userId resourceId : Int) (password : String) : Except AppError (Bool × Option String) := do
  let passwordHash ← s.resourceAccessPasswordHash resourceId
  if trim passwordHash = "" then pure (true, none)
  else
    let opens ← passwordOpens R passwordHash password
    if opens then
      let grant : ResourceAccessGrant :=
        { resourceId, userId, passwordHash, expiresAt := now + resourceAccessTtlSeconds }
      let token ← Crypto.encryptSecret P nonce masterKey grant.text resourceAccessAad
      pure (true, some token)
    else pure (false, none)

/-- The two checks agree. -/
theorem issueAccessToken_agrees {R : Runtime} {P : SecretPrims} {nonce : FixedBytes 12} {now : Int}
    {s : Store} {masterKey password : String} {userId resourceId : Int} {opens : Bool}
    {token : Option String}
    (h : verifyResourcePasswordAndIssueAccessToken R P nonce now s masterKey userId resourceId
      password = .ok (opens, token)) :
    verifyResourcePassword R s resourceId password = .ok opens := by
  unfold verifyResourcePasswordAndIssueAccessToken at h
  obtain ⟨passwordHash, hhash, h⟩ := bind_eq_ok.mp h
  unfold verifyResourcePassword
  rw [hhash, ok_bind]
  by_cases hopen : trim passwordHash = ""
  · rw [if_pos hopen] at h ⊢
    cases h
    rfl
  · rw [if_neg hopen] at h ⊢
    obtain ⟨found, hfound, h⟩ := bind_eq_ok.mp h
    have hsame : found = opens := by
      cases found with
      | false =>
        cases h
        rfl
      | true =>
        obtain ⟨_, _, h⟩ := bind_eq_ok.mp h
        cases h
        rfl
    rw [hsame] at hfound
    exact hfound

def resourceAccessTokenMaxLength : Nat := 4096

/-- `fromStr` is `serde_json::from_str::<ResourceAccessGrant>`. -/
def verifyResourceAccessToken (P : SecretPrims) (fromStr : String → Option ResourceAccessGrant)
    (now : Int) (s : Store) (masterKey token : String) (userId resourceId : Int) :
    Except AppError Bool :=
  if trim token = "" ∨ byteLen token > resourceAccessTokenMaxLength then .ok false
  else
    match Crypto.decryptSecret P masterKey token resourceAccessAad with
    | .error _ => .ok false
    | .ok plaintext =>
      match fromStr plaintext with
      | none => .ok false
      | some grant =>
        if grant.userId ≠ userId ∨ grant.resourceId ≠ resourceId ∨ grant.expiresAt ≤ now then
          .ok false
        else do
          let passwordHash ← s.resourceAccessPasswordHash resourceId
          pure (grant.passwordHash == passwordHash)

section Token

variable {R : Runtime} {P : SecretPrims} {nonce : FixedBytes 12} {now : Int} {s : Store}
  {masterKey password token : String} {userId resourceId : Int}

/-- What a token is issued on. -/
theorem issued_token (h : verifyResourcePasswordAndIssueAccessToken R P nonce now s masterKey userId
      resourceId password = .ok (true, some token)) :
    ∃ passwordHash, s.resourceAccessPasswordHash resourceId = .ok passwordHash ∧
      Crypto.encryptSecret P nonce masterKey (ResourceAccessGrant.text
        { resourceId, userId, passwordHash, expiresAt := now + resourceAccessTtlSeconds })
        resourceAccessAad = .ok token := by
  unfold verifyResourcePasswordAndIssueAccessToken at h
  obtain ⟨passwordHash, hhash, h⟩ := bind_eq_ok.mp h
  split at h
  · cases h
  · obtain ⟨found, _, h⟩ := bind_eq_ok.mp h
    cases found with
    | false => cases h
    | true =>
      obtain ⟨sealed, hsealed, h⟩ := bind_eq_ok.mp h
      cases h
      exact ⟨passwordHash, hhash, hsealed⟩

/-- A token opens what it was issued for, to whom it was issued, until fifteen minutes have passed
or the hash in the row has changed. It opens nothing that its password does not open. -/
theorem access_token_opens_iff {fromStr : String → Option ResourceAccessGrant}
    (hserde : ∀ grant, fromStr (ResourceAccessGrant.text grant) = some grant)
    (h : verifyResourcePasswordAndIssueAccessToken R P nonce now s masterKey userId resourceId
      password = .ok (true, some token)) (now' : Int) (s' : Store) (userId' resourceId' : Int) :
    (verifyResourceAccessToken P fromStr now' s' masterKey token userId' resourceId' = .ok true ↔
      byteLen token ≤ resourceAccessTokenMaxLength ∧ userId' = userId ∧ resourceId' = resourceId ∧
        now' < now + resourceAccessTtlSeconds ∧
        s'.resourceAccessPasswordHash resourceId = s.resourceAccessPasswordHash resourceId) ∧
    (verifyResourceAccessToken P fromStr now' s' masterKey token userId' resourceId' = .ok true →
      verifyResourcePassword R s' resourceId' password = .ok true) := by
  obtain ⟨passwordHash, hhash, hsealed⟩ := issued_token h
  have haccepted : verifyResourceAccessToken P fromStr now' s' masterKey token userId' resourceId'
      = .ok true ↔ byteLen token ≤ resourceAccessTokenMaxLength ∧ userId' = userId ∧
        resourceId' = resourceId ∧ now' < now + resourceAccessTtlSeconds ∧
        s'.resourceAccessPasswordHash resourceId = s.resourceAccessPasswordHash resourceId := by
    unfold verifyResourceAccessToken
    rw [Crypto.decryptSecret_encryptSecret hsealed]
    dsimp only
    rw [hserde, hhash]
    dsimp only
    by_cases hlength : byteLen token ≤ resourceAccessTokenMaxLength
    · rw [if_neg (not_or.mpr ⟨Crypto.trim_encryptSecret hsealed, not_lt.mpr hlength⟩)]
      by_cases hgrant : userId ≠ userId' ∨ resourceId ≠ resourceId' ∨
          now + resourceAccessTtlSeconds ≤ now'
      · rw [if_pos hgrant]
        refine iff_of_false (fun heq => by cases heq) ?_
        rintro ⟨_, rfl, rfl, hnow, _⟩
        rcases hgrant with hne | hne | hle
        · exact hne rfl
        · exact hne rfl
        · omega
      · rw [if_neg hgrant]
        simp only [not_or, ne_eq, not_not, not_le] at hgrant
        obtain ⟨rfl, rfl, hnow⟩ := hgrant
        constructor
        · intro hread
          obtain ⟨found, hfound, heq⟩ := bind_eq_ok.mp hread
          rw [hfound, eq_of_beq (Except.ok.inj heq)]
          exact ⟨hlength, rfl, rfl, hnow, rfl⟩
        · rintro ⟨_, _, _, _, hsame⟩
          rw [hsame, ok_bind, beq_self_eq_true]
          rfl
    · rw [if_pos (.inr (not_le.mp hlength))]
      exact iff_of_false (fun heq => by cases heq) fun hopens => hlength hopens.1
  refine ⟨haccepted, fun htoken => ?_⟩
  obtain ⟨_, _, rfl, _, hsame⟩ := haccepted.mp htoken
  have hagrees := issueAccessToken_agrees h
  unfold verifyResourcePassword at hagrees ⊢
  rw [hsame]
  exact hagrees

end Token

/-! ## What a statement leaves of the rows -/

namespace Store

variable {s s' : Store} {projectId actorUserId resourceId : Int} {row : ResourceRow}

theorem findResource_insertResource :
    (s.insertResource row).findResource s.nextResource =
      some { row with id := s.nextResource } := by
  have hnone : s.resources.find? (·.id == s.nextResource) = none := by
    refine List.find?_eq_none.mpr fun r hr hid => ?_
    have hlt := s.bound r hr
    rw [eq_of_beq hid] at hlt
    exact lt_irrefl _ hlt
  unfold findResource insertResource
  rw [List.find?_append, hnone, Option.none_or]
  exact List.find?_cons_of_pos (beq_self_eq_true s.nextResource)

theorem findResource_updateResourceRow {change : ResourceRow → ResourceRow}
    (hrow : s.findResource resourceId = some row) :
    (s.updateResourceRow resourceId change).findResource resourceId =
      some (changed change row) := by
  have hid : (row.id == resourceId) = true := by simpa using List.find?_some hrow
  unfold findResource at hrow ⊢
  rw [updateResourceRow, find?_updateWhere (fun r => by rw [changed_id]), hrow]
  exact congrArg some (if_pos hid)

theorem resourceAccessPasswordHash_of_find (h : s.findResource resourceId = some row) :
    s.resourceAccessPasswordHash resourceId = .ok row.accessPasswordHash := by
  unfold resourceAccessPasswordHash
  rw [h]
  rfl

theorem resourceAccessPasswordHash_congr (h : s'.resources = s.resources) :
    s'.resourceAccessPasswordHash resourceId = s.resourceAccessPasswordHash resourceId := by
  unfold resourceAccessPasswordHash findResource
  rw [h]

theorem updateResourceRow_hash {change : ResourceRow → ResourceRow}
    (hrow : s.findResource resourceId = some row) :
    (s.updateResourceRow resourceId change).resourceAccessPasswordHash resourceId =
      .ok (change row).accessPasswordHash := by
  have hfind : (s.updateResourceRow resourceId change).findResource resourceId =
      some (changed change row) := findResource_updateResourceRow hrow
  rw [resourceAccessPasswordHash_of_find hfind]
  rfl

@[simp] theorem recordProjectActivity_hash {snapshot action summary : String} {targetId : Int} :
    (s.recordProjectActivity projectId actorUserId snapshot action targetId
      summary).resourceAccessPasswordHash resourceId =
        s.resourceAccessPasswordHash resourceId := rfl

theorem syncTag_resources {tag : NormalizedResourceTag}
    (h : syncTag projectId actorUserId resourceId s tag = .ok s') :
    s'.resources = s.resources := by
  have hupsert : (s.upsertTag projectId actorUserId tag).resources = s.resources := by
    unfold upsertTag
    dsimp only
    split <;> rfl
  unfold syncTag at h
  obtain ⟨_, _, h⟩ := bind_eq_ok.mp h
  obtain ⟨_, _, h⟩ := bind_eq_ok.mp h
  cases h
  exact hupsert

theorem syncResourceTags_resources {tags : List NormalizedResourceTag}
    (h : s.syncResourceTags projectId actorUserId resourceId tags = .ok s') :
    s'.resources = s.resources := by
  unfold syncResourceTags at h
  have hkeep := @foldlM_keeps _ _ _ _ (syncTag projectId actorUserId resourceId) Store.resources
    (fun _ _ _ hstep => syncTag_resources hstep) tags _ _ h
  exact hkeep

theorem syncResourceRelations_resources {relatedWorkItemKey : String} {relatedCycleId : Option Int}
    (h : s.syncResourceRelations projectId resourceId relatedWorkItemKey relatedCycleId = .ok s') :
    s'.resources = s.resources := by
  unfold syncResourceRelations at h
  obtain ⟨s₁, hitem, hcycle⟩ := bind_eq_ok.mp h
  have hfirst : s₁.resources = s.resources := by
    unfold relateWorkItem at hitem
    split at hitem
    · cases hitem
      rfl
    · obtain ⟨_, _, hitem⟩ := bind_eq_ok.mp hitem
      cases hitem
      rfl
  cases relatedCycleId with
  | none =>
    cases hcycle
    exact hfirst
  | some cycleId =>
    obtain ⟨_, _, hcycle⟩ := bind_eq_ok.mp hcycle
    cases hcycle
    exact hfirst

theorem synced_hash {tagged related : Store} {tags : List NormalizedResourceTag}
    {relatedWorkItemKey : String} {relatedCycleId : Option Int}
    (htags : s.syncResourceTags projectId actorUserId resourceId tags = .ok tagged)
    (hrelated : tagged.syncResourceRelations projectId resourceId relatedWorkItemKey
      relatedCycleId = .ok related) :
    related.resourceAccessPasswordHash resourceId = s.resourceAccessPasswordHash resourceId :=
  resourceAccessPasswordHash_congr
    ((syncResourceRelations_resources hrelated).trans (syncResourceTags_resources htags))

end Store

/-! ## The hash that a call leaves -/

section Hashes

variable {R : Runtime} {salt : Bytes} {now : String} {s s' : Store} {actorUserId resourceId : Int}

theorem writeCreatedBody_hash {projectKey : String} {input : CreateProjectResourceInput}
    {row : ResourceRow} (hrow : s.findResource resourceId = some row)
    (h : writeCreatedBody R now s actorUserId projectKey resourceId input = .ok s') :
    s'.resourceAccessPasswordHash resourceId = .ok row.accessPasswordHash := by
  unfold writeCreatedBody at h
  split at h
  · cases h
    exact Store.resourceAccessPasswordHash_of_find hrow
  · obtain ⟨_, _, h⟩ := bind_eq_ok.mp h
    cases h
    exact Store.updateResourceRow_hash hrow

theorem createResource_hash {input : CreateProjectResourceInput}
    (h : createResource R salt now s actorUserId input = .ok (s', resourceId)) :
    ∃ hash, createdPasswordHash R salt input.accessPassword = .ok hash ∧
      s'.resourceAccessPasswordHash resourceId = .ok hash := by
  unfold createResource at h
  obtain ⟨_, _, h⟩ := bind_eq_ok.mp h
  obtain ⟨project, _, h⟩ := bind_eq_ok.mp h
  obtain ⟨title, _, h⟩ := bind_eq_ok.mp h
  obtain ⟨category, _, h⟩ := bind_eq_ok.mp h
  obtain ⟨hash, hhash, h⟩ := bind_eq_ok.mp h
  obtain ⟨tags, _, h⟩ := bind_eq_ok.mp h
  obtain ⟨relatedWorkItemKey, _, h⟩ := bind_eq_ok.mp h
  obtain ⟨relatedCycleId, _, h⟩ := bind_eq_ok.mp h
  obtain ⟨written, hbody, h⟩ := bind_eq_ok.mp h
  obtain ⟨tagged, htags, h⟩ := bind_eq_ok.mp h
  obtain ⟨related, hrelated, h⟩ := bind_eq_ok.mp h
  cases h
  refine ⟨hash, hhash, ?_⟩
  rw [Store.recordProjectActivity_hash, Store.synced_hash htags hrelated]
  exact writeCreatedBody_hash Store.findResource_insertResource hbody

theorem getResource_find {row : ResourceRow} {project : ProjectRow}
    (h : s.getResource resourceId = .ok (row, project)) : s.findResource resourceId = some row := by
  unfold Store.getResource at h
  obtain ⟨_, _, h⟩ := bind_eq_ok.mp h
  obtain ⟨_, hrow, h⟩ := bind_eq_ok.mp h
  obtain ⟨_, _, h⟩ := bind_eq_ok.mp h
  cases h
  exact okOr_eq_ok.mp hrow

theorem updateResource_hash {input : UpdateProjectResourceInput}
    (h : updateResource R salt now s actorUserId resourceId input = .ok s') :
    ∃ existing action hash, s.resourceAccessPasswordHash resourceId = .ok existing ∧
      normalizeAccessPasswordAction input.accessPasswordAction = .ok action ∧
      changedPasswordHash R salt existing input.accessPassword action = .ok hash ∧
      s'.resourceAccessPasswordHash resourceId = .ok hash := by
  unfold updateResource at h
  obtain ⟨⟨row, project⟩, hget, h⟩ := bind_eq_ok.mp h
  obtain ⟨_, _, h⟩ := bind_eq_ok.mp h
  obtain ⟨title, _, h⟩ := bind_eq_ok.mp h
  obtain ⟨category, _, h⟩ := bind_eq_ok.mp h
  obtain ⟨action, haction, h⟩ := bind_eq_ok.mp h
  obtain ⟨existing, hexisting, h⟩ := bind_eq_ok.mp h
  obtain ⟨hash, hhash, h⟩ := bind_eq_ok.mp h
  obtain ⟨tags, _, h⟩ := bind_eq_ok.mp h
  obtain ⟨relatedWorkItemKey, _, h⟩ := bind_eq_ok.mp h
  obtain ⟨relatedCycleId, _, h⟩ := bind_eq_ok.mp h
  obtain ⟨prepared, _, h⟩ := bind_eq_ok.mp h
  obtain ⟨tagged, htags, h⟩ := bind_eq_ok.mp h
  obtain ⟨related, hrelated, h⟩ := bind_eq_ok.mp h
  cases h
  refine ⟨existing, action, hash, hexisting, haction, hhash, ?_⟩
  rw [Store.recordProjectActivity_hash, Store.synced_hash htags hrelated]
  exact Store.updateResourceRow_hash (getResource_find hget)

theorem resetResourceAccessPassword_hash {input : ResetProjectResourceAccessPasswordInput}
    (h : resetResourceAccessPassword R salt now s actorUserId resourceId input = .ok s') :
    ∃ existing action hash, s.resourceAccessPasswordHash resourceId = .ok existing ∧
      normalizeAccessPasswordResetAction input.accessPasswordAction = .ok action ∧
      changedPasswordHash R salt existing input.accessPassword action = .ok hash ∧
      s'.resourceAccessPasswordHash resourceId = .ok hash := by
  unfold resetResourceAccessPassword at h
  obtain ⟨⟨row, project⟩, hget, h⟩ := bind_eq_ok.mp h
  obtain ⟨_, _, h⟩ := bind_eq_ok.mp h
  obtain ⟨action, haction, h⟩ := bind_eq_ok.mp h
  obtain ⟨hash, hhash, h⟩ := bind_eq_ok.mp h
  cases h
  have hrow := getResource_find hget
  refine ⟨row.accessPasswordHash, action, hash, Store.resourceAccessPasswordHash_of_find hrow,
    haction, hhash, ?_⟩
  rw [Store.recordProjectActivity_hash]
  exact Store.updateResourceRow_hash hrow

end Hashes

/-! ## The password that opens the resource -/

section Unlock

variable {R : Runtime} {salt : Bytes} {s : Store} {resourceId : Int} {p hash : String}

theorem verify_of_hash (hR : R.Lawful) (hhash : R.hashPassword salt p = .ok hash)
    (hleft : s.resourceAccessPasswordHash resourceId = .ok hash) {q : String} (hq : trim q ≠ "") :
    verifyResourcePassword R s resourceId q = .ok (decide (q = p)) := by
  unfold verifyResourcePassword
  rw [hleft, ok_bind, if_neg (hR.hash_ne_blank hhash), if_neg hq]
  exact hR.verify_hash hhash q

theorem verify_of_blank (hleft : s.resourceAccessPasswordHash resourceId = .ok "") (q : String) :
    verifyResourcePassword R s resourceId q = .ok true := by
  unfold verifyResourcePassword
  rw [hleft, ok_bind]
  exact if_pos rfl

/-- The text opens the resource, and a blank text leaves it open to every text. -/
structure Unlocks (R : Runtime) (s : Store) (resourceId : Int) (p : String) : Prop where
  exact : verifyResourcePassword R s resourceId p = .ok true
  blank : trim p = "" → ∀ q, verifyResourcePassword R s resourceId q = .ok true

theorem created_unlocks (hR : R.Lawful) (hcreated : createdPasswordHash R salt p = .ok hash)
    (hleft : s.resourceAccessPasswordHash resourceId = .ok hash) : Unlocks R s resourceId p := by
  unfold createdPasswordHash at hcreated
  by_cases hblank : trim p = ""
  · rw [if_pos hblank] at hcreated
    cases hcreated
    exact ⟨verify_of_blank hleft p, fun _ => verify_of_blank hleft⟩
  · rw [if_neg hblank] at hcreated
    obtain ⟨_, _, hhash⟩ := bind_eq_ok.mp hcreated
    refine ⟨?_, fun h => absurd h hblank⟩
    rw [verify_of_hash hR hhash hleft hblank, decide_eq_true rfl]

theorem changed_unlocks_iff (hR : R.Lawful) (hset : setPasswordHash R salt p = .ok hash)
    (hleft : s.resourceAccessPasswordHash resourceId = .ok hash) :
    Unlocks R s resourceId p ↔ trim p = p := by
  unfold setPasswordHash at hset
  dsimp only at hset
  by_cases hblank : trim p = ""
  · rw [if_pos hblank] at hset
    cases hset
  · rw [if_neg hblank] at hset
    obtain ⟨_, _, hhash⟩ := bind_eq_ok.mp hset
    have hverify := verify_of_hash hR hhash hleft hblank
    constructor
    · rintro ⟨hexact, _⟩
      rw [hverify] at hexact
      exact (of_decide_eq_true (Except.ok.inj hexact)).symm
    · intro htrim
      refine ⟨?_, fun h => absurd h hblank⟩
      rw [hverify, decide_eq_true htrim.symm]

end Unlock

/-- A call that sets a password. -/
inductive Setter where
  | create (input : CreateProjectResourceInput)
  | update (resourceId : Int) (input : UpdateProjectResourceInput)
  | reset (resourceId : Int) (input : ResetProjectResourceAccessPasswordInput)

namespace Setter

def password : Setter → String
  | create input => input.accessPassword
  | update _ input => input.accessPassword
  | reset _ input => input.accessPassword

/-- The action is `set`; a new resource has no other. -/
def Sets : Setter → Prop
  | create _ => True
  | update _ input => normalizeAccessPasswordAction input.accessPasswordAction = .ok .set
  | reset _ input => normalizeAccessPasswordResetAction input.accessPasswordAction = .ok .set

def Creates : Setter → Prop
  | create _ => True
  | _ => False

/-- The tables that the call leaves, and the resource that it is about. -/
def run (R : Runtime) (salt : Bytes) (now : String) (s : Store) (actorUserId : Int) :
    Setter → Except AppError (Store × Int)
  | create input => createResource R salt now s actorUserId input
  | update resourceId input => do
    let s ← updateResource R salt now s actorUserId resourceId input
    pure (s, resourceId)
  | reset resourceId input => do
    let s ← resetResourceAccessPassword R salt now s actorUserId resourceId input
    pure (s, resourceId)

end Setter

/-- The text that was accepted opens the resource exactly if the call that set it created the
resource, or if there is no white space at the ends of the text. -/
theorem set_password_unlocks {R : Runtime} (hR : R.Lawful) {salt : Bytes} {now : String}
    {s s' : Store} {actorUserId resourceId : Int} {setter : Setter} (hsets : setter.Sets)
    (hrun : setter.run R salt now s actorUserId = .ok (s', resourceId)) :
    Unlocks R s' resourceId setter.password ↔
      setter.Creates ∨ trim setter.password = setter.password := by
  cases setter with
  | create input =>
    obtain ⟨hash, hcreated, hleft⟩ := createResource_hash hrun
    exact iff_of_true (created_unlocks hR hcreated hleft) (.inl trivial)
  | update id input =>
    obtain ⟨_, hupdate, hrun⟩ := bind_eq_ok.mp hrun
    cases hrun
    obtain ⟨existing, action, hash, _, haction, hset, hleft⟩ := updateResource_hash hupdate
    cases hsets.symm.trans haction
    exact (changed_unlocks_iff hR hset hleft).trans (false_or _).symm.to_iff
  | reset id input =>
    obtain ⟨_, hreset, hrun⟩ := bind_eq_ok.mp hrun
    cases hrun
    obtain ⟨existing, action, hash, _, haction, hset, hleft⟩ :=
      resetResourceAccessPassword_hash hreset
    cases hsets.symm.trans haction
    exact (changed_unlocks_iff hR hset hleft).trans (false_or _).symm.to_iff

/-- Hashes that hide nothing. -/
def plainRuntime : Runtime where
  markup :=
    { clean := fun _ body => body, unescape := some, events := fun _ => none
      validSvg := fun _ => false, freshSectionId := fun _ => "yuance-section-0" }
  toLowercase := toAsciiLowercase
  hashPassword _ p := .ok (Base64.encode Base64.standard (utf8 ("$" ++ p)))
  verifyPassword q hash := .ok (hash == Base64.encode Base64.standard (utf8 ("$" ++ q)))

theorem plainRuntime_lawful : plainRuntime.Lawful where
  verify_hash := by
    intro salt p hash h q
    cases h
    refine congrArg Except.ok (Bool.eq_iff_iff.mpr ?_)
    rw [beq_iff_eq, decide_eq_true_iff]
    constructor
    · intro heq
      have hbytes := congrArg (Base64.decode Base64.standard) heq
      rw [Base64.decode_encode Base64.standard_lawful, Base64.decode_encode Base64.standard_lawful]
        at hbytes
      have htext := congrArg fromUtf8 (Option.some.inj hbytes)
      rw [fromUtf8_utf8, fromUtf8_utf8] at htext
      have hlist := congrArg String.toList (Option.some.inj htext)
      rw [String.toList_append, String.toList_append] at hlist
      exact String.toList_inj.mp (List.append_cancel_left hlist).symm
    · rintro rfl
      rfl
  hash_ne_blank := by
    intro salt p hash h
    cases h
    rw [Base64.trim_encode]
    refine Base64.encode_ne_empty ?_
    unfold utf8
    rw [String.toList_append, List.flatMap_append]
    exact List.append_ne_nil_of_left_ne_nil (by decide) _

/-- One project with one resource that has no password. -/
def openResource : Store where
  projects := [{ id := 1, projectKey := "PA" }]
  workItems := []
  cycles := []
  attachments := []
  resources := [{ id := 1, projectId := 1, title := "notes", category := .other, body := "text",
                  bodyFormat := .plain, status := .active, accessPasswordHash := ""
                  createdByUserId := 1, createdByDisplayNameSnapshot := "A", updatedByUserId := 1
                  updatedByDisplayNameSnapshot := "A", updatedAt := "2026-01-01 00:00:00" }]
  nextResource := 2
  tags := []
  nextTag := 1
  tagRelations := []
  relations := []
  activities := []
  bound := by decide

/-- A password is set by `reset_resource_access_password`. -/
def setPassword (p : String) : Setter :=
  .reset 1
    { accessPasswordAction := "set", accessPassword := p, actorDisplayNameSnapshot := "A" }

theorem set_password_unlocks_plain :
    ∃ s' resourceId,
      (setPassword "abcd").run plainRuntime [] "now" openResource 1 = .ok (s', resourceId) ∧
        Unlocks plainRuntime s' resourceId "abcd" := by
  have hsets : (setPassword "abcd").Sets := rfl
  cases hrun : (setPassword "abcd").run plainRuntime [] "now" openResource 1 with
  | error e =>
    have hok : ((setPassword "abcd").run plainRuntime [] "now" openResource 1).toOption.isSome =
        true := by decide +kernel
    rw [hrun] at hok
    cases hok
  | ok left =>
    exact ⟨left.1, left.2, rfl,
      (set_password_unlocks plainRuntime_lawful hsets hrun).mpr (.inr (by decide +kernel))⟩

/-- A blank before the password: it is accepted, and does not open the resource. -/
theorem blank_before_password_locks :
    (setPassword " abcd").Sets ∧
      (((setPassword " abcd").run plainRuntime [] "now" openResource 1).toOption.map fun left =>
        (verifyResourcePassword plainRuntime left.1 left.2 " abcd").toOption) =
        some (some false) := by
  exact ⟨rfl, by decide +kernel⟩

/-! ## A token for it -/

/-- The fields of a grant in the order in which they are written. -/
def readGrant (text : String) : Option ResourceAccessGrant :=
  match Json.parse text with
  | some (.obj [(_, .num resourceId), (_, .num userId), (_, .str passwordHash),
      (_, .num expiresAt)]) => some { resourceId, userId, passwordHash, expiresAt }
  | _ => none

theorem readGrant_text (grant : ResourceAccessGrant) : readGrant grant.text = some grant := by
  have hdistinct : Json.Distinct (.obj [("resource_id", .num grant.resourceId),
      ("user_id", .num grant.userId), ("password_hash", .str grant.passwordHash),
      ("expires_at", .num grant.expiresAt)]) := by
    have hkeys : ["resource_id", "user_id", "password_hash", "expires_at"].Nodup := by decide
    refine .obj hkeys fun f hf => ?_
    simp only [List.mem_cons, List.not_mem_nil, or_false] at hf
    rcases hf with rfl | rfl | rfl | rfl
    · exact .num _
    · exact .num _
    · exact .str _
    · exact .num _
  have hparse := @Json.parse_stringify _ hdistinct "" (by simp)
  rw [String.append_empty] at hparse
  unfold readGrant ResourceAccessGrant.text
  rw [hparse]

def secrets : SecretPrims := { aead := Aead.plain, storageKey := fun _ => .fill 32 0 }

/-- The hash of `abcd`. -/
def lockedResource : Store :=
  { openResource with
    resources := openResource.resources.map ({ · with accessPasswordHash := "JGFiY2Q=" })
    bound := by decide }

theorem a_token_opens_for_its_owner : ∃ token,
    verifyResourceAccessToken secrets readGrant 100 lockedResource "0123456789abcdef" token 1 1 =
      .ok true := by
  have hchecked : ((verifyResourcePasswordAndIssueAccessToken plainRuntime secrets (.fill 12 0) 0
      lockedResource "0123456789abcdef" 1 1 "abcd").toOption.bind fun pair => pair.2.map
        fun token => pair.1 && decide (byteLen token ≤ resourceAccessTokenMaxLength)) =
          some true := by decide +kernel
  cases hissue : verifyResourcePasswordAndIssueAccessToken plainRuntime secrets (.fill 12 0) 0
      lockedResource "0123456789abcdef" 1 1 "abcd" with
  | error e =>
    rw [hissue] at hchecked
    cases hchecked
  | ok pair =>
    rw [hissue] at hchecked
    obtain ⟨token, htoken, hboth⟩ := Option.map_eq_some_iff.mp hchecked
    obtain ⟨hopens, hlength⟩ := Bool.and_eq_true_iff.mp hboth
    have hpair : pair = (true, some token) := Prod.ext hopens htoken
    rw [hpair] at hissue
    exact ⟨token, (access_token_opens_iff readGrant_text hissue 100 lockedResource 1 1).1.mpr
      ⟨of_decide_eq_true hlength, rfl, rfl, by decide, rfl⟩⟩

end Resources
end Yuance
