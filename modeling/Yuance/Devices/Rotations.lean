import Yuance.Devices.Authorizations

/-!
# Yuance.Devices.Rotations

The rotations of a family do not fork. A generation is rotated once, and its rotation keeps the
credentials that it has returned; a token that is rotated again for another transaction ends its
family.

* `Linked`: what the rows of a family, its credentials and its device have to do with each other.
* `Rotated`, `Passed`: a rotation that returned credentials, and what it has left for good.
* `replay_revokes`: a rotated token is presented for another transaction.
* `rotations_do_not_fork`: every run.
-/

namespace Yuance
namespace Devices
namespace Sessions

open Lib Platform

/-! ## Rows that stay -/

section Rows

variable {S : Server} {t u : Tables} {e : Event} {out : Outcome}

theorem RotationYields.quiet_or {C : Crates} {drawn : Drawn} {masterKey : String}
    {policy : DeviceSessionPolicy} {now : Int} {s s' : Store} {credentials : Credentials}
    {sourceRefreshTokenHash transactionId requestedDeviceId : String} {sourceGeneration : Int}
    (h : RotationYields C drawn masterKey policy now s sourceRefreshTokenHash sourceGeneration
      transactionId requestedDeviceId s' credentials) : ∃ q, Quiet s q ∧
      (∀ c ∈ q.credentials, c ∈ s'.credentials) ∧ (∀ r ∈ q.rotations, r ∈ s'.rotations) ∧
        s'.families = q.families := by
  cases h with
  | recovered _ _ _ _ _ => exact ⟨s, Quiet.refl s, fun _ h => h, fun _ h => h, rfl⟩
  | @issued row _ _ _ _ _ _ _ _ _ _ _ =>
    refine ⟨(s.ended row.familyId sourceGeneration sourceRefreshTokenHash
      (timestamp now)).slideFamily row.familyId (timestamp credentials.refreshExpiresAt)
      (timestamp now), ?_, ?_, ?_, rfl⟩
    · exact Quiet.trans (quiet_ended _ _ _ _) (Quiet.slideFamily _ _ _)
    · exact fun c hc => List.mem_append_left _ hc
    · exact fun r hr => List.mem_append_left _ hr

theorem ExchangeYields.quiet_or {C : Crates} {drawn : Drawn} {masterKey : String}
    {policy : DeviceSessionPolicy} {now : Int} {s s' : Store} {credentials : Credentials}
    {deviceCodeHash codeVerifier transactionId : String}
    (h : ExchangeYields C drawn masterKey policy now s deviceCodeHash codeVerifier transactionId s'
      credentials) : ∃ q, Quiet s q ∧ (∀ c ∈ q.credentials, c ∈ s'.credentials) ∧
      (∀ r ∈ q.rotations, r ∈ s'.rotations) ∧ ∀ f ∈ q.families, f ∈ s'.families := by
  cases h with
  | recovered _ _ _ _ => exact ⟨s, Quiet.refl s, fun _ h => h, fun _ h => h, fun _ h => h⟩
  | @issued row userId gate devices device deviceId ciphertext _ _ _ _ hgate _ _ _ _ _ _ _ _ =>
    exact ⟨gate, hgate.quiet, fun c hc => List.mem_append_left _ hc, fun r hr => hr,
      fun f hf => List.mem_append_left _ hf⟩

/-- No row of a family, a credential or a rotation is lost. -/
theorem serve_rows (hserve : serve S t e = some (u, out)) : ∃ q, Quiet t.store q ∧
    (∀ c ∈ q.credentials, c ∈ u.store.credentials) ∧ (∀ r ∈ q.rotations, r ∈ u.store.rotations) ∧
      ∀ f ∈ q.families, f ∈ u.store.families := by
  cases serve_cases hserve with
  | calm hcalm _ => exact ⟨u.store, hcalm, fun _ h => h, fun _ h => h, fun _ h => h⟩
  | exchanged _ _ _ hyields => exact hyields.quiet_or
  | rotated _ _ hyields =>
    obtain ⟨q, hquiet, hcredentials, hrotations, hfamilies⟩ := hyields.quiet_or
    exact ⟨q, hquiet, hcredentials, hrotations, fun f hf => hfamilies ▸ hf⟩

end Rows

/-! ## Identical results -/

/-- The step is a rotation that returned the credentials. -/
structure Rotated (S : Server) (x : Entry Tables Event Outcome) (input : RotateRefreshInput)
    (transactionId : String) (credentials : Credentials) : Prop where
  call : ∃ drawn, x.event.call = .rotate drawn input
  transaction : normalizeTransactionIdDomain S.crates input.transactionId = .ok transactionId
  out : x.out = .ok (.credentials credentials)

/-- The credential of the refresh token that a step has found. -/
def refreshOf (S : Server) (t : Tables) (input : RotateRefreshInput) : Option RefreshRow :=
  t.store.findRefresh (hashDeviceToken S.crates input.refreshToken)

/-- Behind the rotation, its credential and its result. -/
structure Passed (S : Server) (t : Tables) (input : RotateRefreshInput) (transactionId : String)
    (credentials : Credentials) (row : RefreshRow) : Prop where
  credential : ∃ c ∈ t.store.credentials, c.familyId = row.familyId ∧
    c.generation = input.generation ∧
      c.refreshTokenHash = hashDeviceToken S.crates input.refreshToken ∧ c.deviceId = row.deviceId
  rotation : ∃ r ∈ t.store.rotations, r.familyId = row.familyId ∧
    r.sourceGeneration = input.generation ∧ r.transactionId = transactionId ∧
      (r.resultCiphertext = "" ∨ openCredentials S.crates S.masterKey r.resultCiphertext
        (refreshRotationAad row.familyId row.deviceId S.policy.serverInstanceId input.generation
          transactionId (hashDeviceToken S.crates input.refreshToken)) = some credentials)

section Steps

variable {S : Server} {t u : Tables} {e : Event} {out : Outcome} {input input' : RotateRefreshInput}
  {transactionId transactionId' : String} {credentials credentials' : Credentials}
  {row : RefreshRow}

theorem Passed.served (h : Passed S t input transactionId credentials row)
    (hserve : serve S t e = some (u, out)) : Passed S u input transactionId credentials row := by
  obtain ⟨q, hquiet, hcredentials, hrotations, _⟩ := serve_rows hserve
  obtain ⟨⟨c, hc, hfamily, hgeneration, hhash, hdevice⟩, r, hr, hrfamily, hrgeneration,
    hrtransaction, hciphertext⟩ := h
  constructor
  · obtain ⟨c', hc', hkept⟩ := rows_image hquiet.credentials hc
    exact ⟨c', hcredentials c' hc', hkept.familyId.trans hfamily, hkept.generation.trans
      hgeneration, hkept.refreshTokenHash.trans hhash, hkept.deviceId.trans hdevice⟩
  · obtain ⟨r', hr', hkept⟩ := rows_image hquiet.rotations hr
    refine ⟨r', hrotations r' hr', hkept.familyId.trans hrfamily,
      hkept.sourceGeneration.trans hrgeneration, hkept.transactionId.trans hrtransaction, ?_⟩
    rcases hkept.resultCiphertext with hsame | hempty
    · rw [hsame]
      exact hciphertext
    · exact .inl hempty

/-- What a rotation that returns credentials finds and leaves. -/
theorem rotated_step (hcodec : S.crates.Lossless) (hserve : serve S t e = some (u, out))
    (h : Rotated S ⟨t, e, out⟩ input transactionId credentials) :
    ∃ row, refreshOf S t input = some row ∧
      row.Usable S.policy input.generation input.deviceId ∧
      (((t.store.rotations.find? fun r =>
          r.familyId == row.familyId && r.sourceGeneration == input.generation) = none ∧
        credentials.familyId = row.familyId ∧ credentials.generation = input.generation + 1) ∨
      ∃ r ∈ t.store.rotations, r.familyId = row.familyId ∧ r.sourceGeneration = input.generation ∧
        r.transactionId = transactionId ∧
        openCredentials S.crates S.masterKey r.resultCiphertext
          (refreshRotationAad row.familyId row.deviceId S.policy.serverInstanceId input.generation
            transactionId (hashDeviceToken S.crates input.refreshToken)) = some credentials) ∧
      Passed S u input transactionId credentials row := by
  obtain ⟨⟨drawn, hcall⟩, htransaction, hout⟩ := h
  dsimp only at hcall hout
  subst hout
  cases serve_cases hserve with
  | calm _ hnone => exact absurd rfl (hnone credentials)
  | @exchanged drawn' input' _ _ _ hcall' _ _ _ =>
    rw [hcall] at hcall'
    cases hcall'
  | @rotated drawn' input' transactionId' s' _ hcall' htransaction' hyields =>
    rw [hcall] at hcall'
    cases hcall'
    rw [htransaction] at htransaction'
    cases htransaction'
    cases hyields with
    | @recovered row rotation _ hrow husable hrotation hsame hopen =>
      have husable := requireUsable_eq_ok.mp husable
      obtain ⟨c, f, d, user, hjoins⟩ := Store.findRefresh_joins hrow
      have hmem := List.mem_of_find?_eq_some hrotation
      have hfound := List.find?_some hrotation
      rw [Bool.and_eq_true] at hfound
      refine ⟨row, hrow, husable, .inr ⟨rotation, hmem, eq_of_beq hfound.1, eq_of_beq hfound.2,
        hsame, hopen⟩, ⟨c, List.mem_of_find?_eq_some hjoins.credential, hjoins.familyId.symm,
          hjoins.generation.symm.trans husable.generation, ?_, hjoins.deviceId.symm⟩,
          rotation, hmem, eq_of_beq hfound.1, eq_of_beq hfound.2, hsame, .inr hopen⟩
      have hhash := List.find?_some hjoins.credential
      exact eq_of_beq hhash
    | @issued row refreshAbsoluteExpiresAt _ ciphertext hrow husable hnone _ hcredentials hseal _
        _ =>
      have husable := requireUsable_eq_ok.mp husable
      obtain ⟨c, f, d, user, hjoins⟩ := Store.findRefresh_joins hrow
      refine ⟨row, hrow, husable, .inl ⟨hnone, ?_, ?_⟩, ?_, ?_⟩
      · rw [hcredentials]
        rfl
      · rw [hcredentials]
        rfl
      · have hquiet := quiet_ended (s := t.store) row.familyId input.generation
          (hashDeviceToken S.crates input.refreshToken) (timestamp e.now)
        obtain ⟨c', hc', hkept⟩ :=
          rows_image hquiet.credentials (List.mem_of_find?_eq_some hjoins.credential)
        have hhash := List.find?_some hjoins.credential
        exact ⟨c', List.mem_append_left _ hc', hkept.familyId.trans hjoins.familyId.symm,
          (hkept.generation.trans hjoins.generation.symm).trans husable.generation,
          hkept.refreshTokenHash.trans (eq_of_beq hhash), hkept.deviceId.trans hjoins.deviceId.symm⟩
      · exact ⟨_, List.mem_append_right _ (List.mem_singleton.mpr rfl), rfl, rfl, rfl,
          .inr (openCredentials_sealCredentials hcodec hseal)⟩

/-- A rotation behind one of the same generation returns what that returned. -/
theorem Passed.again (h : Passed S t input transactionId credentials row)
    (hchained : Chained t.store) (hcodec : S.crates.Lossless)
    (hserve : serve S t e = some (u, out)) {row' : RefreshRow}
    (hnow : Rotated S ⟨t, e, out⟩ input' transactionId' credentials')
    (hrow : refreshOf S t input' = some row') (hfamily : row.familyId = row'.familyId)
    (hgeneration : input.generation = input'.generation) : credentials = credentials' := by
  obtain ⟨⟨c, hc, hcfamily, hcgeneration, hchash, hcdevice⟩, r, hr, hrfamily, hrgeneration,
    hrtransaction, hciphertext⟩ := h
  obtain ⟨_, hrow', husable, hfound, _⟩ := rotated_step hcodec hserve hnow
  obtain rfl := Option.some.inj (hrow.symm.trans hrow')
  obtain ⟨n, hchain⟩ := hchained.chain row'.familyId
    (hfamily ▸ hrfamily ▸ hchained.rotation r hr)
  rcases hfound with ⟨hnone, _⟩ | ⟨r', hr', hrfamily', hrgeneration', hrtransaction', hopen⟩
  · refine absurd (List.find?_eq_none.mp hnone r hr) (not_not.mpr ?_)
    rw [hrfamily, hfamily, hrgeneration, hgeneration, beq_self_eq_true, beq_self_eq_true]
    rfl
  · obtain rfl : r = r' := by
      refine eq_of_group (hchain.rotations ▸ generationsBelow_nodup n) hr hr'
        (hrfamily.trans hfamily) hrfamily' ?_
      exact (hrgeneration.trans hgeneration).trans hrgeneration'.symm
    obtain ⟨c', f, d, user, hjoins⟩ := Store.findRefresh_joins hrow
    have hhash' := List.find?_some hjoins.credential
    obtain rfl : c = c' := by
      refine eq_of_group (hchain.credentials ▸ generationsBelow_nodup (n + 1)) hc
        (List.mem_of_find?_eq_some hjoins.credential) (hcfamily.trans hfamily)
          hjoins.familyId.symm ?_
      rw [hcgeneration, hgeneration, ← hjoins.generation, husable.generation]
    have hsameHash : hashDeviceToken S.crates input.refreshToken =
        hashDeviceToken S.crates input'.refreshToken := hchash.symm.trans (eq_of_beq hhash')
    have hsameDevice : row.deviceId = row'.deviceId := hcdevice.symm.trans hjoins.deviceId.symm
    rcases hciphertext with hempty | hsame
    · rw [hempty, openCredentials_empty] at hopen
      cases hopen
    · rw [hfamily, hsameDevice, hsameHash, hgeneration, ← hrtransaction, hrtransaction', hopen]
        at hsame
      exact (Option.some.inj hsame).symm

end Steps

/-! ## Families, credentials and devices -/

/-- No device is revoked, and a family in use has its version; a credential belongs to a family of
its user and to a device. -/
structure Linked (S : Server) (s : Store) : Prop where
  device : ∀ d ∈ s.devices, d.status = .active ∧ d.authorizationVersion = 1
  family : ∀ f ∈ s.families, f.status = .active → f.authorizationVersion = 1
  credential : ∀ c ∈ s.credentials, c.serverInstanceId = S.policy.serverInstanceId ∧
    c.deviceId ∈ s.devices.map (·.id) ∧ ∃ f ∈ s.families, f.id = c.familyId ∧ f.userId = c.userId
  policy : ∀ f ∈ s.families, validatePolicy S.policy = .ok ()

section Linked

variable {S : Server} {s s' : Store}

theorem Linked.quiet (h : Linked S s) (hquiet : Quiet s s') : Linked S s' where
  device d hd := by
    obtain ⟨d', hd', hkept⟩ := rows_origin hquiet.devices hd
    rw [hkept.status, hkept.authorizationVersion]
    exact h.device d' hd'
  family f hf hactive := by
    obtain ⟨f', hf', hkept⟩ := rows_origin hquiet.families hf
    obtain ⟨hlive, hversion⟩ := hkept.live hactive
    rw [hversion]
    exact h.family f' hf' hlive
  credential c hc := by
    obtain ⟨c', hc', hkept⟩ := rows_origin hquiet.credentials hc
    obtain ⟨hserver, hdevice, f, hf, hid, huser⟩ := h.credential c' hc'
    obtain ⟨f', hf', hkept'⟩ := rows_image hquiet.families hf
    refine ⟨hkept.serverInstanceId.trans hserver, ?_, f', hf', ?_, ?_⟩
    · rw [hkept.deviceId, rows_column (fun _ _ hdevice => hdevice.id) hquiet.devices]
      exact hdevice
    · rw [hkept'.id, hid, hkept.familyId]
    · rw [hkept'.userId, huser, hkept.userId]
  policy f hf := by
    obtain ⟨f', hf', _⟩ := rows_origin hquiet.families hf
    exact h.policy f' hf'

theorem DevicesSeen.linked {devices devices' : List DeviceRow} {drawn : Drawn}
    (h : DevicesSeen devices drawn devices')
    (hdevices : ∀ d ∈ devices, d.status = .active ∧ d.authorizationVersion = 1) :
    (∀ d ∈ devices', d.status = .active ∧ d.authorizationVersion = 1) ∧
      ∀ id ∈ devices.map (·.id), id ∈ devices'.map (·.id) := by
  cases h with
  | @known f hf =>
    constructor
    · intro d hd
      obtain ⟨d', hd', rfl⟩ := List.mem_map.mp hd
      rw [(hf d').2.1, (hf d').2.2]
      exact hdevices d' hd'
    · intro id hid
      obtain ⟨d, hd, rfl⟩ := List.mem_map.mp hid
      exact List.mem_map.mpr ⟨f d, List.mem_map_of_mem hd, (hf d).1⟩
  | @registered row _ hstatus hversion =>
    constructor
    · intro d hd
      rcases List.mem_append.mp hd with hold | hnew
      · exact hdevices d hold
      · rw [List.mem_singleton.mp hnew]
        exact ⟨hstatus, hversion⟩
    · intro id hid
      rw [List.map_append]
      exact List.mem_append_left _ hid

theorem serve_linked {t u : Tables} {e : Event} {out : Outcome} (h : Linked S t.store)
    (hserve : serve S t e = some (u, out)) : Linked S u.store := by
  cases serve_cases hserve with
  | calm hcalm _ => exact h.quiet hcalm
  | exchanged _ hpolicy _ hyields =>
    cases hyields with
    | recovered _ _ _ _ => exact h
    | @issued row userId gate devices device deviceId ciphertext credentials _ _ _ hgate hdevices _
        _ hdevice hcredentials _ _ _ =>
      have hgated := h.quiet hgate.quiet
      obtain ⟨hseen, hids⟩ := hdevices.linked hgated.device
      constructor
      · exact hseen
      · intro f hf hactive
        rcases List.mem_append.mp hf with hold | hnew
        · exact hgated.family f hold hactive
        · rw [List.mem_singleton.mp hnew]
          rfl
      · intro c hc
        rcases List.mem_append.mp hc with hold | hnew
        · obtain ⟨hserver, hmem, f, hf, hid, huser⟩ := hgated.credential c hold
          exact ⟨hserver, hids _ hmem, f, List.mem_append_left _ hf, hid, huser⟩
        · rw [List.mem_singleton.mp hnew]
          refine ⟨rfl, ?_, _, List.mem_append_right _ (List.mem_singleton.mpr rfl), ?_, ?_⟩
          · have hid := List.find?_some hdevice
            refine List.mem_map.mpr ⟨device, List.mem_of_find?_eq_some hdevice, ?_⟩
            rw [eq_of_beq hid, hcredentials]
            rfl
          · rw [hcredentials]
            rfl
          · rw [hcredentials]
            rfl
      · exact fun _ _ => hpolicy
  | @rotated drawn input transactionId s' credentials _ _ hyields =>
    cases hyields with
    | recovered _ _ _ _ _ => exact h
    | @issued row _ _ ciphertext hrow _ _ _ hcredentials _ _ _ =>
      have hquiet := Quiet.trans (quiet_ended (s := t.store) row.familyId input.generation
          (hashDeviceToken S.crates input.refreshToken) (timestamp e.now))
        (Quiet.slideFamily row.familyId (timestamp credentials.refreshExpiresAt) (timestamp e.now))
      have hended := h.quiet hquiet
      obtain ⟨c₀, f₀, d₀, u₀, hjoins⟩ := Store.findRefresh_joins hrow
      obtain ⟨_, hdevice, f, hf, hid, huser⟩ :=
        h.credential c₀ (List.mem_of_find?_eq_some hjoins.credential)
      refine ⟨hended.device, hended.family, ?_, hended.policy⟩
      intro c hc
      rcases List.mem_append.mp hc with hold | hnew
      · exact hended.credential c hold
      · rw [List.mem_singleton.mp hnew]
        obtain ⟨f', hf', hkept⟩ := rows_image hquiet.families hf
        refine ⟨rfl, ?_, f', hf', ?_, ?_⟩
        · rw [hcredentials]
          exact (hjoins.deviceId ▸ hdevice : row.deviceId ∈ t.store.devices.map (·.id))
        · rw [hkept.id, hid, hcredentials]
          exact hjoins.familyId.symm
        · rw [hkept.userId, huser, hcredentials]
          exact hjoins.userId.symm

end Linked

/-! ## A family that is over -/

/-- The family is there, and not in use. -/
structure Over (s : Store) (familyId : String) : Prop where
  mem : familyId ∈ s.families.map (·.id)
  status : ∀ f ∈ s.families, f.id = familyId → f.status ≠ .active

section Over

variable {S : Server} {s s' : Store} {t u : Tables} {e : Event} {out : Outcome} {familyId : String}

theorem Over.quiet (h : Over s familyId) (hquiet : Quiet s s') : Over s' familyId where
  mem := hquiet.familyIds ▸ h.mem
  status f hf hid hactive := by
    obtain ⟨f', hf', hkept⟩ := rows_origin hquiet.families hf
    exact h.status f' hf' (hkept.id.symm.trans hid) (hkept.live hactive).1

theorem Over.served (h : Over t.store familyId) (hserve : serve S t e = some (u, out)) :
    Over u.store familyId := by
  cases serve_cases hserve with
  | calm hcalm _ => exact h.quiet hcalm
  | exchanged _ _ _ hyields =>
    cases hyields with
    | recovered _ _ _ _ => exact h
    | issued _ _ _ hgate _ hid _ _ hcredentials _ _ _ =>
      have hgated := h.quiet hgate.quiet
      constructor
      · refine Eq.subst (motive := (familyId ∈ ·)) List.map_append.symm ?_
        exact List.mem_append_left _ hgated.mem
      · intro f hf hsame
        rcases List.mem_append.mp hf with hold | hnew
        · exact hgated.status f hold hsame
        · rw [List.mem_singleton.mp hnew] at hsame
          have hmem := hgated.mem
          rw [← hsame] at hmem
          exact absurd hmem hid
  | rotated _ _ hyields =>
    obtain ⟨q, hquiet, _, _, hfamilies⟩ := hyields.quiet_or
    have hkept := h.quiet hquiet
    refine ⟨?_, ?_⟩
    · unfold Tables.keepStore
      rw [hfamilies]
      exact hkept.mem
    · unfold Tables.keepStore
      rw [hfamilies]
      exact hkept.status

/-- Nothing of it can be used. -/
theorem Over.unusable (h : Over t.store familyId) :
    (∀ access, Authenticates S.crates t access → access.familyId ≠ familyId) ∧
      ∀ input row, refreshOf S t input = some row → row.familyId = familyId →
        row.familyStatus ≠ .active := by
  constructor
  · intro access haccess hfamily
    obtain ⟨a, _, f, hf, hactive, _, _, hsame, _⟩ := haccess.session
    have hid := List.find?_some hf
    exact h.status f (List.mem_of_find?_eq_some hf) ((eq_of_beq hid).trans (hsame.trans hfamily))
      hactive
  · intro input row hrow hfamily hactive
    obtain ⟨c, f, d, user, hjoins⟩ := Store.findRefresh_joins hrow
    have hid := List.find?_some hjoins.family
    exact h.status f (List.mem_of_find?_eq_some hjoins.family)
      ((eq_of_beq hid).trans (hjoins.familyId.symm.trans hfamily)) (hjoins.familyStatus ▸ hactive)

end Over

/-! ## A replay -/

/-- The token of the row was rotated by `r`, its family is in use, and the call presents it as its
device, for another transaction. -/
structure Replay (S : Server) (t : Tables) (input : RotateRefreshInput) (row : RefreshRow)
    (r : RotationRow) : Prop where
  found : refreshOf S t input = some row
  rotation : r ∈ t.store.rotations
  familyId : r.familyId = row.familyId
  sourceGeneration : r.sourceGeneration = row.generation
  active : row.familyStatus = .active
  transaction : ∃ transactionId,
    normalizeTransactionIdDomain S.crates input.transactionId = .ok transactionId ∧
      r.transactionId ≠ transactionId
  token : isDeviceRefreshToken input.refreshToken = true
  generation : input.generation = row.generation
  deviceId : input.deviceId = row.deviceId ∧ trim input.deviceId ≠ ""
  serverInstanceId : input.serverInstanceId = S.policy.serverInstanceId
  user : row.userStatus = "active"

section Replay

variable {S : Server} {t : Tables} {input : RotateRefreshInput} {row : RefreshRow} {r : RotationRow}

theorem generation_nonneg {n : Nat} {g : Int} (h : g ∈ generationsBelow n) : 0 ≤ g := by
  obtain ⟨k, _, rfl⟩ := List.mem_map.mp h
  exact Int.natCast_nonneg k

/-- One family is revoked. -/
theorem revocable_one {s : Store} {f : FamilyRow} (hf : f ∈ s.families)
    (hactive : f.status = .active) :
    (s.families.filter (Store.revocable f.id f.userId)).length = 1 := by
  have hone : s.families.filter (Store.revocable f.id f.userId) =
      (s.families.filter (·.id == f.id)).filter (Store.revocable f.id f.userId) := by
    rw [List.filter_filter]
    refine List.filter_congr fun g _ => ?_
    unfold Store.revocable
    cases g.id == f.id <;> simp
  have hself : Store.revocable f.id f.userId f = true := by
    unfold Store.revocable
    rw [beq_self_eq_true, beq_self_eq_true, hactive]
    rfl
  rw [hone, filter_of_key s.familyIds hf, List.filter_cons_of_pos hself]
  rfl

theorem Replay.usable (h : Replay S t input row r) (hlinked : Linked S t.store) :
    row.Usable S.policy input.generation input.deviceId := by
  obtain ⟨c, f, d, user, hjoins⟩ := Store.findRefresh_joins h.found
  obtain ⟨hstatus, hversion⟩ := hlinked.device d (List.mem_of_find?_eq_some hjoins.device)
  refine ⟨h.deviceId.1.symm, ?_, h.generation.symm, h.user, ?_, h.active, ?_⟩
  · rw [hjoins.serverInstanceId]
    exact (hlinked.credential c (List.mem_of_find?_eq_some hjoins.credential)).1
  · rw [hjoins.deviceStatus]
    exact hstatus
  · rw [hjoins.familyVersion, hjoins.deviceVersion, hversion]
    refine hlinked.family f (List.mem_of_find?_eq_some hjoins.family) ?_
    rw [← hjoins.familyStatus]
    exact h.active

/-- When nothing breaks, the call returns `RefreshReplay`, and the family is revoked. -/
theorem Replay.revokes (h : Replay S t input row r) (hchained : Chained t.store)
    (hlinked : Linked S t.store) (drawn : Drawn) (now : Int) :
    ∃ u, serve S t ⟨.rotate drawn input, now, fun _ => false⟩ = some (u, .error .refreshReplay) ∧
      u.store.Revoked row.familyId := by
  obtain ⟨c, f, d, user, hjoins⟩ := Store.findRefresh_joins h.found
  obtain ⟨transactionId, htransaction, hother⟩ := h.transaction
  have hcredential := List.mem_of_find?_eq_some hjoins.credential
  have hf := List.mem_of_find?_eq_some hjoins.family
  have hfid := List.find?_some hjoins.family
  have hfid : f.id = row.familyId := (eq_of_beq hfid).trans hjoins.familyId.symm
  obtain ⟨n, hchain⟩ := hchained.chain row.familyId (hjoins.familyId ▸ hchained.credential c
    hcredential)
  have huser : f.userId = row.userId := by
    obtain ⟨_, _, f', hf', hid', huser'⟩ := hlinked.credential c hcredential
    rw [eq_of_key t.store.familyIds hf hf' (hfid.trans (hjoins.familyId.trans hid'.symm)), huser',
      hjoins.userId]
  have hone : (t.store.families.filter (Store.revocable row.familyId row.userId)).length = 1 := by
    rw [← hfid, ← huser]
    exact revocable_one hf (hjoins.familyStatus ▸ h.active)
  have hnonneg : 0 ≤ input.generation := by
    refine generation_nonneg (n := n + 1) (hchain.credentials ▸ mem_group.mpr ?_)
    exact ⟨c, hcredential, hjoins.familyId.symm, hjoins.generation.symm.trans h.generation.symm⟩
  have hfound : (t.store.rotations.find? fun r =>
      r.familyId == row.familyId && r.sourceGeneration == input.generation) = some r := by
    have hself : (r.familyId == row.familyId && r.sourceGeneration == input.generation) = true := by
      rw [h.familyId, h.sourceGeneration, h.generation, beq_self_eq_true, beq_self_eq_true]
      rfl
    cases hfind : t.store.rotations.find? fun r =>
        r.familyId == row.familyId && r.sourceGeneration == input.generation with
    | none => exact absurd hself (List.find?_eq_none.mp hfind r h.rotation)
    | some r' =>
      have hkeys := List.find?_some hfind
      rw [Bool.and_eq_true] at hkeys
      rw [eq_of_group (hchain.rotations ▸ generationsBelow_nodup n)
        (List.mem_of_find?_eq_some hfind) h.rotation (eq_of_beq hkeys.1) h.familyId
        ((eq_of_beq hkeys.2).trans (h.generation.trans h.sourceGeneration.symm))]
  have hrevoked : Returns (revokeFamilyInTransaction now row.userId row.familyId "refresh_replay")
      t.store (((t.store.revokeFamilyRow row.familyId row.userId (timestamp now)
        "refresh_replay").revokeSessions (·.familyId == row.familyId) (timestamp now)
        "refresh_replay").revokeCredentials row.familyId (timestamp now) "refresh_replay") () := by
    unfold revokeFamilyInTransaction
    refine Returns.bind (Returns.statement rfl) ?_
    rw [if_neg (not_not.mpr hone)]
    exact Returns.bind Returns.execute Returns.execute
  have hfails : Fails (rotateRefreshToken S.crates drawn S.masterKey S.policy now input) t.store
      (t.store.revokedFamily row input.generation (timestamp now) "refresh_replay" false)
      .refreshReplay := by
    unfold rotateRefreshToken
    refine Fails.behind (Returns.ofExcept (hlinked.policy f hf)) ?_
    refine Fails.behind (Returns.rejectIf ?_) ?_
    · rw [h.token, not_or]
      exact ⟨(by decide), by omega⟩
    refine Fails.behind (Returns.ofExcept htransaction) (Fails.behind (Returns.rejectIf ?_) ?_)
    · rw [not_or, not_not]
      exact ⟨h.deviceId.2, h.serverInstanceId⟩
    refine Fails.atomically ?_ rfl
    unfold rotateRefreshInTransaction
    refine Fails.behind Returns.select (Fails.behind (Returns.ofExcept (okOr_eq_ok.mpr h.found)) ?_)
    refine Fails.behind (Returns.ofExcept (requireUsable_eq_ok.mpr (h.usable hlinked))) ?_
    refine Fails.behind Returns.select ?_
    rw [hfound]
    dsimp only
    unfold answerRotated
    rw [if_pos hother]
    exact Fails.behind hrevoked (Fails.behind Returns.execute Fails.fail)
  obtain ⟨n', hrun⟩ := hfails.run 0
  refine ⟨t.keepStore (t.store.revokedFamily row input.generation (timestamp now) "refresh_replay"
    false), ?_, Store.revokedFamily_revoked hone⟩
  unfold serve
  dsimp only [Call.transaction]
  have hcall : (do
      let credentials ← onStore (rotateRefreshToken S.crates drawn S.masterKey S.policy now input)
      pure (Answer.credentials credentials) : Work Answer) (fun _ => false) 0 t =
      (n', t.keepStore (t.store.revokedFamily row input.generation (timestamp now) "refresh_replay"
        false), .error .refreshReplay) := by
    rw [Concludes.bind_eq]
    unfold Tx.bind onStore Tx.zoom
    rw [hrun]
  rw [hcall]

end Replay

/-! ## Runs -/

/-- What the rotations of a run have left. -/
structure Unforked (S : Server) (tr : List (Entry Tables Event Outcome)) (t : Tables) : Prop where
  chained : Chained t.store
  linked : Linked S t.store
  passed : ∀ x ∈ tr, ∀ input transactionId credentials,
    Rotated S x input transactionId credentials → ∃ row,
      refreshOf S x.pre input = some row ∧ Passed S t input transactionId credentials row ∧
      credentials.familyId = row.familyId ∧ credentials.generation = input.generation + 1
  made : ∀ r ∈ t.store.rotations, ∃ x ∈ tr, ∃ input transactionId credentials row,
    Rotated S x input transactionId credentials ∧ refreshOf S x.pre input = some row ∧
      r.familyId = row.familyId ∧ r.sourceGeneration = input.generation
  identical : ∀ x ∈ tr, ∀ y ∈ tr, ∀ input input' transactionId transactionId'
    credentials credentials', Rotated S x input transactionId credentials →
    Rotated S y input' transactionId' credentials' →
      credentials.familyId = credentials'.familyId → input.generation = input'.generation →
        credentials = credentials'

theorem Tables.Fresh.unforked {S : Server} {t : Tables} (h : t.Fresh) : Unforked S [] t where
  chained := h.chained
  linked :=
    { device := fun d hd => by
        rw [h.devices] at hd
        cases hd
      family := fun f hf => by
        rw [h.families] at hf
        cases hf
      credential := fun c hc => by
        rw [h.credentials] at hc
        cases hc
      policy := fun f hf => by
        rw [h.families] at hf
        cases hf }
  passed x hx := by cases hx
  made r hr := by
    rw [h.rotations] at hr
    cases hr
  identical x hx := by cases hx

section Step

variable {S : Server} {tr : List (Entry Tables Event Outcome)} {t u : Tables} {e : Event}
  {out : Outcome} {input : RotateRefreshInput} {transactionId : String} {credentials : Credentials}

/-- A rotation that is new is made by the call. -/
theorem serve_made (hserve : serve S t e = some (u, out)) :
    ∀ r ∈ u.store.rotations, (∃ r' ∈ t.store.rotations, r.familyId = r'.familyId ∧
      r.sourceGeneration = r'.sourceGeneration) ∨
      ∃ input transactionId credentials row, Rotated S ⟨t, e, out⟩ input transactionId credentials ∧
        refreshOf S t input = some row ∧ r.familyId = row.familyId ∧
          r.sourceGeneration = input.generation := by
  have hquiet : ∀ {s s' : Store}, Quiet s s' → ∀ r ∈ s'.rotations, ∃ r' ∈ s.rotations,
      r.familyId = r'.familyId ∧ r.sourceGeneration = r'.sourceGeneration := by
    intro s s' hquiet r hr
    obtain ⟨r', hr', hkept⟩ := rows_origin hquiet.rotations hr
    exact ⟨r', hr', hkept.familyId, hkept.sourceGeneration⟩
  intro r hr
  cases serve_cases hserve with
  | calm hcalm _ => exact .inl (hquiet hcalm r hr)
  | exchanged _ _ _ hyields =>
    cases hyields with
    | recovered _ _ _ _ => exact .inl ⟨r, hr, rfl, rfl⟩
    | issued _ _ _ hgate _ _ _ _ _ _ _ _ => exact .inl (hquiet hgate.quiet r hr)
  | @rotated drawn input transactionId _ credentials hcall htransaction hyields =>
    cases hyields with
    | recovered _ _ _ _ _ => exact .inl ⟨r, hr, rfl, rfl⟩
    | @issued row _ _ _ hrow _ _ _ _ _ _ _ =>
      rcases List.mem_append.mp hr with hold | hnew
      · exact .inl ⟨r, hold, rfl, rfl⟩
      · rw [List.mem_singleton.mp hnew]
        exact .inr ⟨input, transactionId, credentials, row, ⟨⟨drawn, hcall⟩, htransaction, rfl⟩,
          hrow, rfl, rfl⟩

/-- A rotation behind one of the same generation returns what that returned. -/
theorem Unforked.again (h : Unforked S tr t) (hcodec : S.crates.Lossless)
    (hserve : serve S t e = some (u, out)) {x : Entry Tables Event Outcome} (hx : x ∈ tr)
    {input' : RotateRefreshInput} {transactionId' : String} {credentials' : Credentials}
    (hpast : Rotated S x input' transactionId' credentials')
    (hnow : Rotated S ⟨t, e, out⟩ input transactionId credentials) {row : RefreshRow}
    (hrow : refreshOf S t input = some row) (hfamily : credentials'.familyId = row.familyId)
    (hgeneration : input'.generation = input.generation) : credentials' = credentials := by
  obtain ⟨row', _, hpassed, hfamily', _⟩ := h.passed x hx input' transactionId' credentials' hpast
  exact hpassed.again h.chained hcodec hserve hnow hrow (hfamily'.symm.trans hfamily) hgeneration

/-- The credentials are those of the next generation. -/
theorem Unforked.next (h : Unforked S tr t) (hcodec : S.crates.Lossless)
    (hserve : serve S t e = some (u, out)) {row : RefreshRow}
    (hnow : Rotated S ⟨t, e, out⟩ input transactionId credentials)
    (hrow : refreshOf S t input = some row) :
    credentials.familyId = row.familyId ∧ credentials.generation = input.generation + 1 := by
  obtain ⟨row', hrow', _, hfound, _⟩ := rotated_step hcodec hserve hnow
  obtain rfl := Option.some.inj (hrow.symm.trans hrow')
  rcases hfound with ⟨_, hfamily, hgeneration⟩ | ⟨r, hr, hrfamily, hrgeneration, _⟩
  · exact ⟨hfamily, hgeneration⟩
  · -- The rotation that is found was made by a call that returned the same.
    obtain ⟨x, hx, input', transactionId', credentials', row', hpast, hrow',
      hmade, hmadeGeneration⟩ := h.made r hr
    obtain ⟨row'', hrow'', _, hfamily, hnext⟩ := h.passed x hx input' transactionId' credentials'
      hpast
    obtain rfl := Option.some.inj (hrow'.symm.trans hrow'')
    have hsameFamily : credentials'.familyId = row.familyId :=
      (hfamily.trans hmade.symm).trans hrfamily
    have hsameGeneration : input'.generation = input.generation :=
      hmadeGeneration.symm.trans hrgeneration
    obtain rfl := h.again hcodec hserve hx hpast hnow hrow hsameFamily hsameGeneration
    exact ⟨hsameFamily, hsameGeneration ▸ hnext⟩

theorem Unforked.step (h : Unforked S tr t) (hcodec : S.crates.Lossless)
    (hserve : serve S t e = some (u, out)) : Unforked S (tr ++ [⟨t, e, out⟩]) u := by
  constructor
  · exact serve_chained h.chained hserve
  · exact serve_linked h.linked hserve
  · intro x hx input transactionId credentials hrotated
    rcases List.mem_append.mp hx with hpast | hnow
    · obtain ⟨row, hrow, hpassed, hnext⟩ := h.passed x hpast input transactionId credentials
        hrotated
      exact ⟨row, hrow, hpassed.served hserve, hnext⟩
    · obtain rfl := List.mem_singleton.mp hnow
      obtain ⟨row, hrow, _, _, hpassed⟩ := rotated_step hcodec hserve hrotated
      exact ⟨row, hrow, hpassed, h.next hcodec hserve hrotated hrow⟩
  · intro r hr
    rcases serve_made hserve r hr with ⟨r', hr', hfamily, hgeneration⟩ | hnew
    · obtain ⟨x, hx, input, transactionId, credentials, row, hrotated, hrow, hrfamily,
        hrgeneration⟩ := h.made r' hr'
      exact ⟨x, List.mem_append_left _ hx, input, transactionId, credentials, row, hrotated, hrow,
        hfamily.trans hrfamily, hgeneration.trans hrgeneration⟩
    · exact ⟨_, List.mem_append_right _ (List.mem_singleton.mpr rfl), hnew⟩
  · intro x hx y hy input input' transactionId transactionId' credentials credentials' hfirst
      hsecond hfamily hgeneration
    rcases List.mem_append.mp hx with hxpast | hxnow
    · rcases List.mem_append.mp hy with hypast | hynow
      · exact h.identical x hxpast y hypast input input' transactionId transactionId' credentials
          credentials' hfirst hsecond hfamily hgeneration
      · obtain rfl := List.mem_singleton.mp hynow
        obtain ⟨row, hrow, _⟩ := rotated_step hcodec hserve hsecond
        exact h.again hcodec hserve hxpast hfirst hsecond hrow
          (hfamily.trans (h.next hcodec hserve hsecond hrow).1) hgeneration
    · obtain rfl := List.mem_singleton.mp hxnow
      rcases List.mem_append.mp hy with hypast | hynow
      · obtain ⟨row, hrow, _⟩ := rotated_step hcodec hserve hfirst
        exact (h.again hcodec hserve hypast hsecond hfirst hrow
          (hfamily.symm.trans (h.next hcodec hserve hfirst hrow).1) hgeneration.symm).symm
      · obtain rfl := List.mem_singleton.mp hynow
        exact Answer.credentials.inj (Except.ok.inj (hfirst.out.symm.trans hsecond.out))

end Step

/-- In every run from empty tables: a rotation that returns credentials returns those of the next
generation of the family of its token, and all rotations of one generation of a family return the
same; a rotated token that its device presents again for another transaction is refused as a replay
and ends the family, and from then on nothing of the family authenticates or rotates. -/
theorem rotations_do_not_fork (S : Server) (hcodec : S.crates.Lossless) {t₀ t : Tables}
    {tr : List (Entry Tables Event Outcome)} (hfresh : t₀.Fresh) (hrun : Run (serve S) t₀ tr t) :
    (∀ x ∈ tr, ∀ input transactionId credentials, Rotated S x input transactionId credentials →
      credentials.generation = input.generation + 1 ∧ ∃ row, refreshOf S x.pre input = some row ∧
        credentials.familyId = row.familyId) ∧
    (∀ x ∈ tr, ∀ y ∈ tr, ∀ input input' transactionId transactionId' credentials credentials',
      Rotated S x input transactionId credentials → Rotated S y input' transactionId' credentials' →
        credentials.familyId = credentials'.familyId → input.generation = input'.generation →
          credentials = credentials') ∧
    (∀ input row r, Replay S t input row r → ∀ drawn now, ∃ u,
      serve S t ⟨.rotate drawn input, now, fun _ => false⟩ = some (u, .error .refreshReplay) ∧
        u.store.Revoked row.familyId ∧ ∀ tr' v, Run (serve S) u tr' v →
          (∀ access, Authenticates S.crates v access → access.familyId ≠ row.familyId) ∧
          ∀ x ∈ tr', ∀ input' transactionId credentials,
            Rotated S x input' transactionId credentials →
              ∀ row', refreshOf S x.pre input' = some row' → row'.familyId ≠ row.familyId) := by
  have hunforked : Unforked S tr t := by
    refine Run.history (C := fun _ _ => True) hfresh.unforked ?_ hrun fun _ _ => trivial
    exact fun _ _ _ _ _ _ h _ hserve => h.step hcodec hserve
  refine ⟨?_, hunforked.identical, ?_⟩
  · intro x hx input transactionId credentials hrotated
    obtain ⟨row, hrow, _, hfamily, hgeneration⟩ :=
      hunforked.passed x hx input transactionId credentials hrotated
    exact ⟨hgeneration, row, hrow, hfamily⟩
  · intro input row r hreplay drawn now
    obtain ⟨u, hserve, hrevoked⟩ :=
      hreplay.revokes hunforked.chained hunforked.linked drawn now
    refine ⟨u, hserve, hrevoked, ?_⟩
    intro tr' v hbehind
    have hover : Over u.store row.familyId := by
      obtain ⟨f, hf, hid, hstatus⟩ := hrevoked.family
      refine ⟨hid ▸ List.mem_map_of_mem hf, fun g hg hsame => ?_⟩
      rw [eq_of_key u.store.familyIds hg hf (hsame.trans hid.symm), hstatus]
      exact fun h => by cases h
    have hkept : Over v.store row.familyId ∧ ∀ x ∈ tr', ∀ input' transactionId credentials,
        Rotated S x input' transactionId credentials →
          ∀ row', refreshOf S x.pre input' = some row' → row'.familyId ≠ row.familyId := by
      refine Run.history (C := fun _ _ => True)
        (I := fun tr' v => Over v.store row.familyId ∧ ∀ x ∈ tr', ∀ input' transactionId
          credentials, Rotated S x input' transactionId credentials → ∀ row',
            refreshOf S x.pre input' = some row' → row'.familyId ≠ row.familyId)
        ⟨hover, fun x hx => by cases hx⟩ ?_ hbehind fun _ _ => trivial
      rintro tr' v e w out _ ⟨hkept, hall⟩ _ hserve
      refine ⟨hkept.served hserve, fun x hx input' transactionId credentials hrotated row'
        hrow' => ?_⟩
      rcases List.mem_append.mp hx with hpast | hnow
      · exact hall x hpast input' transactionId credentials hrotated row' hrow'
      · obtain rfl := List.mem_singleton.mp hnow
        obtain ⟨row'', hrow'', husable, _⟩ := rotated_step hcodec hserve hrotated
        obtain rfl := Option.some.inj (hrow'.symm.trans hrow'')
        exact fun hfamily => (hkept.unusable (S := S)).2 input' row' hrow' hfamily
          husable.familyStatus
    exact ⟨(hkept.1.unusable (S := S)).1, hkept.2⟩

/-- The first generation is rotated again, as another transaction. -/
def rotatedTwice : List Event :=
  sampleRun ++ [atSecond 95 (.rotate (drawnOf 3) (rotateOnce 1 0 "second"))]

def isRotation (x : Entry Tables Event Outcome) : Bool :=
  match x.event.call, x.out with
  | .rotate _ _, .ok _ => true
  | _, _ => false

theorem rotated_twice_is_one_rotation :
    ∃ tr t, exec (serve sampleServer) oneUser rotatedTwice = some (tr, t) ∧
      (tr.filter isRotation).length = 1 ∧ t.store.families.map (·.status) = [.revoked] ∧
      ∀ x ∈ tr, ∀ y ∈ tr, ∀ input input' transactionId transactionId' credentials credentials',
        Rotated sampleServer x input transactionId credentials →
          Rotated sampleServer y input' transactionId' credentials' →
            credentials.familyId = credentials'.familyId → input.generation = input'.generation →
              credentials = credentials' := by
  have hlook : (exec (serve sampleServer) oneUser rotatedTwice).map (fun r =>
      ((r.1.filter isRotation).length, r.2.store.families.map (·.status))) =
      some (1, [.revoked]) := by
    decide +kernel
  obtain ⟨⟨tr, t⟩, hexec, hends⟩ := Option.map_eq_some_iff.mp hlook
  obtain ⟨hlength, hrevoked⟩ := Prod.mk.inj hends
  exact ⟨tr, t, hexec, hlength, hrevoked, (rotations_do_not_fork sampleServer spellingCrates_lossless
    oneUser_fresh (run_of_exec hexec)).2.1⟩

/-- The first generation for another transaction, with the id of another device. -/
def fromElsewhere : RotateRefreshInput := { rotateOnce 1 0 "second" with deviceId := "E" }

/-- The token is one of a family in use, and was rotated for another transaction; the call is
refused for another reason, and the family stays in use. -/
def isShrugged (t : Tables) : Bool :=
  match refreshOf sampleServer t fromElsewhere, t.store.rotations with
  | some row, [r] =>
    r.familyId == row.familyId && r.sourceGeneration == row.generation &&
      row.generation == fromElsewhere.generation && row.familyStatus == .active &&
      r.transactionId != fromElsewhere.transactionId &&
      isDeviceRefreshToken fromElsewhere.refreshToken &&
      match serve sampleServer t (atSecond 95 (.rotate (drawnOf 3) fromElsewhere)) with
      | some (u, .error error) =>
        error == .invalidRefreshToken && u.store.families.all (·.status == .active)
      | _ => false
  | _, _ => false

theorem rotated_token_of_another_device :
    ∃ tr t, oneUser.Fresh ∧ Run (serve sampleServer) oneUser tr t ∧
      ∃ row r u, refreshOf sampleServer t fromElsewhere = some row ∧ r ∈ t.store.rotations ∧
        r.familyId = row.familyId ∧ r.sourceGeneration = row.generation ∧
        row.generation = fromElsewhere.generation ∧ row.familyStatus = .active ∧
        r.transactionId ≠ fromElsewhere.transactionId ∧
        isDeviceRefreshToken fromElsewhere.refreshToken = true ∧
        serve sampleServer t (atSecond 95 (.rotate (drawnOf 3) fromElsewhere)) =
          some (u, .error .invalidRefreshToken) ∧
        ∀ f ∈ u.store.families, f.status = .active := by
  have hlook : (exec (serve sampleServer) oneUser sampleRun).map (fun r => isShrugged r.2) =
      some true := by decide +kernel
  obtain ⟨⟨tr, t⟩, hexec, hshrugged⟩ := Option.map_eq_some_iff.mp hlook
  refine ⟨tr, t, oneUser_fresh, run_of_exec hexec, ?_⟩
  dsimp only at hshrugged
  unfold isShrugged at hshrugged
  split at hshrugged
  · rename_i row r hrow hrotations
    split at hshrugged
    · rename_i u error hserve
      simp only [Bool.and_eq_true, beq_iff_eq, bne_iff_ne, List.all_eq_true] at hshrugged
      obtain ⟨⟨⟨⟨⟨⟨hfamily, hsource⟩, hgeneration⟩, hactive⟩, htransaction⟩, htoken⟩, herror,
        hall⟩ := hshrugged
      rw [herror] at hserve
      exact ⟨row, r, u, hrow, hrotations ▸ List.mem_singleton.mpr rfl, hfamily, hsource,
        hgeneration, hactive, htransaction, htoken, hserve, hall⟩
    · rw [Bool.and_false] at hshrugged
      cases hshrugged
  · cases hshrugged

end Sessions
end Devices
end Yuance
