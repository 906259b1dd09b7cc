import Yuance.Devices.Chains

/-!
# Yuance.Devices.Authorizations

An authorization yields at most one set of credentials. Its row is told by its id and by the hash of
its device code; a call may move it on, and one that is over may be deleted.

* `Moved`: what becomes of a row. `Walk`: what a call does to the rows.
* `Remembered`: what an exchange that returned credentials has left for good.
* `one_credential_set`: every run.
-/

namespace Yuance
namespace Devices
namespace Sessions

open Lib Platform

/-! ## What becomes of an authorization -/

/-- The authorization is denied or expired. -/
def isEnded (status : AuthorizationStatus) : Bool := status == .denied || status == .expired

/-- What is over stays over; the result of an exchange stays, or is erased. -/
structure Moved (a b : AuthorizationRow) : Prop where
  id : b.id = a.id
  deviceCodeHash : b.deviceCodeHash = a.deviceCodeHash
  serverInstanceId : b.serverInstanceId = a.serverInstanceId
  ended : isEnded a.status = true → isEnded b.status = true
  consumed : a.status = .consumed → b.status = .consumed ∧
    b.exchangeTransactionId = a.exchangeTransactionId ∧
      (b.exchangeResultCiphertext = a.exchangeResultCiphertext ∨ b.exchangeResultCiphertext = "")

theorem Moved.refl (a : AuthorizationRow) : Moved a a :=
  ⟨rfl, rfl, rfl, fun h => h, fun h => ⟨h, rfl, .inl rfl⟩⟩

theorem Moved.trans {a b c : AuthorizationRow} (hab : Moved a b) (hbc : Moved b c) : Moved a c where
  id := hbc.id.trans hab.id
  deviceCodeHash := hbc.deviceCodeHash.trans hab.deviceCodeHash
  serverInstanceId := hbc.serverInstanceId.trans hab.serverInstanceId
  ended h := hbc.ended (hab.ended h)
  consumed h := by
    obtain ⟨hb, htransaction, hciphertext⟩ := hab.consumed h
    obtain ⟨hc, htransaction', hciphertext'⟩ := hbc.consumed hb
    refine ⟨hc, htransaction'.trans htransaction, ?_⟩
    rcases hciphertext' with hsame | hempty
    · rw [hsame]
      exact hciphertext
    · exact .inr hempty

/-- Rows are moved on, deleted when they are over, or inserted under the ids. -/
structure Walk (ids : List String) (t t' : List AuthorizationRow) : Prop where
  origin : ∀ b ∈ t', (∃ a ∈ t, Moved a b) ∨ b.id ∈ ids
  idsNodup : (t.map (·.id)).Nodup → (t'.map (·.id)).Nodup
  hashesNodup : (t.map (·.deviceCodeHash)).Nodup → (t'.map (·.deviceCodeHash)).Nodup
  kept : (t.map (·.id)).Nodup → ∀ a ∈ t, a.status = .consumed → ∃ b ∈ t', Moved a b

namespace Walk

variable {ids : List String} {t t' t'' : List AuthorizationRow}

theorem refl (t : List AuthorizationRow) : Walk ids t t where
  origin b hb := .inl ⟨b, hb, .refl b⟩
  idsNodup h := h
  hashesNodup h := h
  kept _ a ha _ := ⟨a, ha, .refl a⟩

theorem trans (h : Walk ids t t') (h' : Walk ids t' t'') : Walk ids t t'' where
  origin c hc := by
    rcases h'.origin c hc with ⟨b, hb, hbc⟩ | hnew
    · rcases h.origin b hb with ⟨a, ha, hab⟩ | hnew
      · exact .inl ⟨a, ha, hab.trans hbc⟩
      · exact .inr (hbc.id ▸ hnew)
    · exact .inr hnew
  idsNodup hnodup := h'.idsNodup (h.idsNodup hnodup)
  hashesNodup hnodup := h'.hashesNodup (h.hashesNodup hnodup)
  kept hnodup a ha hconsumed := by
    obtain ⟨b, hb, hab⟩ := h.kept hnodup a ha hconsumed
    obtain ⟨c, hc, hbc⟩ := h'.kept (h.idsNodup hnodup) b hb (hab.consumed hconsumed).1
    exact ⟨c, hc, hab.trans hbc⟩

theorem updateWhere {p : AuthorizationRow → Bool} {f : AuthorizationRow → AuthorizationRow}
    (hf : ∀ a, p a = true → Moved a (f a)) : Walk ids t (Lib.updateWhere p f t) := by
  have hrows : List.Forall₂ Moved t (Lib.updateWhere p f t) :=
    rows_updateWhere .refl fun a _ hp => hf a hp
  constructor
  · exact fun b hb => .inl (rows_origin hrows hb)
  · rw [rows_column (fun _ _ hmoved => hmoved.id) hrows]
    exact fun h => h
  · rw [rows_column (fun _ _ hmoved => hmoved.deviceCodeHash) hrows]
    exact fun h => h
  · exact fun _ a ha _ => rows_image hrows ha

theorem filter {p : AuthorizationRow → Bool}
    (hp : (t.map (·.id)).Nodup → ∀ a ∈ t, a.status = .consumed → p a = true) :
    Walk ids t (t.filter p) where
  origin b hb := .inl ⟨b, (List.mem_filter.mp hb).1, .refl b⟩
  idsNodup h := h.sublist (List.filter_sublist.map _)
  hashesNodup h := h.sublist (List.filter_sublist.map _)
  kept hnodup a ha hconsumed := ⟨a, List.mem_filter.mpr ⟨ha, hp hnodup a ha hconsumed⟩, .refl a⟩

theorem append {row : AuthorizationRow} (hmem : row.id ∈ ids) (hid : ∀ a ∈ t, a.id ≠ row.id)
    (hhash : ∀ a ∈ t, a.deviceCodeHash ≠ row.deviceCodeHash) : Walk ids t (t ++ [row]) where
  origin b hb := by
    rcases List.mem_append.mp hb with hold | hnew
    · exact .inl ⟨b, hold, .refl b⟩
    · rw [List.mem_singleton.mp hnew]
      exact .inr hmem
  idsNodup h := by
    rw [List.map_append]
    refine List.Nodup.append h (List.nodup_singleton _) (List.disjoint_singleton.mpr fun hin => ?_)
    obtain ⟨a, ha, heq⟩ := List.mem_map.mp hin
    exact hid a ha heq
  hashesNodup h := by
    rw [List.map_append]
    refine List.Nodup.append h (List.nodup_singleton _) (List.disjoint_singleton.mpr fun hin => ?_)
    obtain ⟨a, ha, heq⟩ := List.mem_map.mp hin
    exact hhash a ha heq
  kept _ a ha _ := ⟨a, List.mem_append_left _ ha, .refl a⟩

end Walk

/-- The same of the tables. -/
def StoreWalk (ids : List String) (s s' : Store) : Prop :=
  Walk ids s.authorizations s'.authorizations

def TablesWalk (ids : List String) (t t' : Tables) : Prop := StoreWalk ids t.store t'.store

instance (ids : List String) : Std.Refl (StoreWalk ids) := ⟨fun s => Walk.refl s.authorizations⟩

instance (ids : List String) : IsTrans Store (StoreWalk ids) := ⟨fun _ _ _ h h' => Walk.trans h h'⟩

instance (ids : List String) : Std.Refl (TablesWalk ids) :=
  ⟨fun t => Walk.refl t.store.authorizations⟩

instance (ids : List String) : IsTrans Tables (TablesWalk ids) :=
  ⟨fun _ _ _ h h' => Walk.trans h h'⟩

/-! ## What the calls do to the authorizations -/

section Calls

variable {C : Crates} {U : UserCodes} {masterKey : String} {policy : DeviceSessionPolicy}
  {now : Int} {ids : List String}

/-- An update that leaves the keys and the result, of rows that are neither over nor consumed. -/
theorem moved_open {a b : AuthorizationRow} (hopen : isOpen a.status = true) (hid : b.id = a.id)
    (hhash : b.deviceCodeHash = a.deviceCodeHash)
    (hserver : b.serverInstanceId = a.serverInstanceId) : Moved a b where
  id := hid
  deviceCodeHash := hhash
  serverInstanceId := hserver
  ended h := by
    unfold isEnded at h
    unfold isOpen at hopen
    cases hstatus : a.status <;> rw [hstatus] at h hopen <;> cases hopen <;> cases h
  consumed h := by
    rw [h] at hopen
    cases hopen

theorem walk_write {f : Tables → Tables}
    (hf : ∀ t, Walk ids t.store.authorizations (f t).store.authorizations) :
    Moves (TablesWalk ids) (write f) := Moves.execute hf

theorem walk_modify {affected : Tables → Nat} {f : Tables → Tables}
    (hf : ∀ t, Walk ids t.store.authorizations (f t).store.authorizations) :
    Moves (TablesWalk ids) (modify affected f) := Moves.statement hf

theorem walk_onStore {α : Type} {p : Transaction α} (hp : Moves (StoreWalk ids) p) :
    Moves (TablesWalk ids) (onStore p) := Moves.zoom (fun _ _ h => h) hp

theorem walk_expire {p : AuthorizationRow → Bool} (hp : ∀ a, p a = true → isOpen a.status = true)
    (now : Stamp) (t : Tables) :
    Walk ids t.store.authorizations (t.expireAuthorizations p now).store.authorizations :=
  Walk.updateWhere fun a ha => moved_open (hp a ha) rfl rfl rfl

theorem walk_expireAuthorization (id : String) (now : Stamp) (s : Store) :
    StoreWalk ids s (s.expireAuthorization id now) := by
  refine Walk.updateWhere fun a ha => moved_open ?_ rfl rfl rfl
  exact (Bool.and_eq_true _ _ ▸ ha).2

theorem walk_setNextPoll (p : AuthorizationRow → Bool) (nextPollAt now : Stamp) (s : Store) :
    StoreWalk ids s (s.setNextPoll p nextPollAt now) :=
  Walk.updateWhere fun _ _ => ⟨rfl, rfl, rfl, fun h => h, fun h => ⟨h, rfl, .inl rfl⟩⟩

theorem insertAuthorization_walk {row : AuthorizationRow} {review : ReviewRow} (hmem : row.id ∈ ids)
    (t : Tables) : Walk ids t.store.authorizations
      (t.insertAuthorization row review).1.store.authorizations := by
  unfold Tables.insertAuthorization
  split
  · exact Walk.refl _
  · rename_i hnot
    rw [Bool.or_eq_true, not_or] at hnot
    have hnone := List.any_eq_false.mp (eq_false_of_ne_true hnot.1)
    refine Walk.append hmem (fun a ha heq => hnone a ha ?_) fun a ha heq => hnone a ha ?_
    · rw [beq_iff_eq.mpr heq, Bool.true_or]
    · rw [beq_iff_eq.mpr heq, Bool.or_true]

theorem insertDrawn_walk {input : StartAuthorizationInput} {drawn : List StartDraw}
    (hids : ∀ draw ∈ drawn, draw.authorizationId ∈ ids) :
    Moves (TablesWalk ids) (insertDrawn C U masterKey policy now input drawn) := by
  induction drawn with
  | nil => exact Moves.fail _
  | cons draw drawn ih =>
    have hdraw : (authorizationRow C policy now input draw).id ∈ ids := hids draw List.mem_cons_self
    unfold insertDrawn
    refine Moves.bind (Moves.ofExcept _) fun _ => Moves.bind ?_ fun inserted => ?_
    · exact Moves.statement fun t => insertAuthorization_walk hdraw t
    · cases inserted with
      | true => exact Moves.done _
      | false => exact ih fun draw hmem => hids draw (List.mem_cons_of_mem _ hmem)

theorem startAuthorization_walk {draws : Fin 5 → StartDraw} {input : StartAuthorizationInput} :
    Moves (TablesWalk ((List.ofFn draws).map (·.authorizationId)))
      (startAuthorization C U masterKey policy now draws input) := by
  unfold startAuthorization
  refine Moves.bind (Moves.ofExcept _) fun _ => Moves.atomically (Moves.bind ?_ fun _ => ?_)
  · unfold prepareAuthorizationCapacity
    refine Moves.bind (walk_write (walk_expire (fun a ha => ?_) _)) fun _ => ?_
    · unfold Tables.isOverdue at ha
      rw [Bool.and_eq_true, Bool.and_eq_true] at ha
      exact ha.2.1
    refine Moves.bind (Moves.ofExcept _) fun _ => ?_
    refine Moves.bind (walk_write fun t => Walk.filter fun _ a _ hconsumed => ?_) fun _ => ?_
    · dsimp only
      rw [hconsumed]
      cases a.serverInstanceId == policy.serverInstanceId <;> rfl
    · exact Moves.bind (Moves.select _) fun _ => Moves.rejectIf _ _
  · exact insertDrawn_walk fun draw hmem => List.mem_map_of_mem hmem

theorem authorizationForReview_walk {serverInstanceId userCode : String} :
    Moves (TablesWalk ids) (authorizationForReview U masterKey serverInstanceId userCode) := by
  unfold authorizationForReview
  refine Moves.bind (Moves.ofExcept _) fun _ => Moves.bind (Moves.select _) fun _ => ?_
  refine Moves.bind (Moves.okOr _ _) fun _ => Moves.bind (Moves.ofExcept _) fun _ => ?_
  exact Moves.bind (Moves.ofExcept _) fun _ => Moves.bind (Moves.ofExcept _) fun _ => Moves.done _

theorem expireByUserCode_walk {userCodeHash serverInstanceId : String} :
    Moves (TablesWalk ids) (expireByUserCode now userCodeHash serverInstanceId) := by
  intro t
  refine Concludes.statement (Walk.refl _) (fun _ h => by cases h) fun _ _ => ?_
  refine walk_expire (fun a ha => ?_) _ t
  rw [Bool.and_eq_true, Bool.and_eq_true] at ha
  unfold isOpen
  rw [ha.1.2, Bool.true_or]

theorem writeDecision_walk {authorizationId : String} {userId : Option Int} :
    Moves (TablesWalk ids) (writeDecision now authorizationId userId) := by
  unfold writeDecision
  refine Moves.bind (walk_modify fun t => Walk.updateWhere fun a ha => ?_) fun updated => ?_
  · unfold isDecidable at ha
    rw [Bool.and_eq_true, Bool.and_eq_true] at ha
    refine moved_open ?_ rfl rfl rfl
    unfold isOpen
    rw [ha.1.2, Bool.true_or]
  · split
    · exact Moves.done _
    · unfold classifyDecisionFailure
      refine Moves.bind (Moves.select _) fun _ => Moves.bind (Moves.okOr _ _) fun row => ?_
      refine Moves.bind (Moves.ofExcept _) fun expiresAt => ?_
      split
      · refine Moves.bind (walk_write (walk_expire (fun a ha => ?_) _)) fun _ => Moves.fail _
        rw [Bool.and_eq_true] at ha
        unfold isOpen
        rw [ha.2, Bool.true_or]
      · split <;> exact Moves.fail _

theorem ensureActiveUser_walk {userId : Int} : Moves (StoreWalk ids) (ensureActiveUser userId) := by
  unfold ensureActiveUser
  exact Moves.bind (Moves.select _) fun _ => Moves.rejectIf _ _

theorem decideAuthorization_walk {authorizationId : String} {userId : Option Int} :
    Moves (TablesWalk ids) (decideAuthorization now authorizationId userId) := by
  cases userId with
  | some userId =>
    exact Moves.atomically
      (Moves.bind (walk_onStore ensureActiveUser_walk) fun _ => writeDecision_walk)
  | none => exact Moves.atomically writeDecision_walk

theorem pollAuthorization_walk {deviceCode serverInstanceId : String} :
    Moves (TablesWalk ids) (pollAuthorization C now deviceCode serverInstanceId) := by
  unfold pollAuthorization
  refine Moves.bind (Moves.ofExcept _) fun _ => walk_onStore (Moves.atomically ?_)
  unfold pollInTransaction
  refine Moves.bind (Moves.select _) fun _ => Moves.bind (Moves.okOr _ _) fun row => ?_
  refine Moves.bind (Moves.ofExcept _) fun expiresAt => ?_
  split
  · exact Moves.bind (Moves.execute (walk_expireAuthorization _ _)) fun _ => Moves.fail _
  · split
    · refine Moves.bind ?_ fun _ => Moves.done _
      unfold enforcePollGate
      refine Moves.bind (Moves.ofExcept _) fun nextPollAt => ?_
      dsimp only
      split
      · exact Moves.bind (Moves.execute (walk_setNextPoll _ _ _)) fun _ => Moves.fail _
      · exact Moves.bind (Moves.statement (walk_setNextPoll _ _ _)) fun _ => Moves.rejectIf _ _
    · exact Moves.done _

theorem mem_earliest {α : Type} {time : α → Stamp} {id : α → String} {limit : Int} {rows : List α}
    {i : String} (h : i ∈ earliest time id limit rows) : ∃ b ∈ rows, id b = i := by
  obtain ⟨b, hb, hid⟩ := List.mem_map.mp h
  exact ⟨b, mem_orderBy.mp (List.mem_of_mem_take hb), hid⟩

theorem cleanupExpiredAuthorizations_walk {limit : Int} :
    Moves (TablesWalk ids) (cleanupExpiredAuthorizations now limit) := by
  unfold cleanupExpiredAuthorizations
  refine Moves.bind (Moves.ofExcept _) fun _ => Moves.atomically ?_
  refine Moves.bind (walk_modify (walk_expire (fun a ha => ?_) _)) fun _ => ?_
  · unfold Tables.isOverdue at ha
    rw [Bool.and_eq_true] at ha
    exact ha.1
  refine Moves.bind (walk_modify fun t => Walk.filter fun hnodup a ha hconsumed => ?_) fun _ =>
    Moves.done _
  -- What is chosen is over, and no other row has its id.
  rw [Bool.not_eq_true', Bool.eq_false_iff]
  intro hcontains
  obtain ⟨b, hb, hid⟩ := mem_earliest (List.contains_iff_mem.mp hcontains)
  obtain ⟨hmem, hold⟩ := List.mem_filter.mp hb
  rw [eq_of_key hnodup hmem ha hid] at hold
  dsimp only at hold
  rw [hconsumed] at hold
  cases hold

theorem eraseExpiredExchangeResults_walk :
    Moves (TablesWalk ids) (eraseExpiredExchangeResults now) :=
  walk_modify fun _ => Walk.updateWhere fun _ _ =>
    ⟨rfl, rfl, rfl, fun h => h, fun h => ⟨h, rfl, .inr rfl⟩⟩

end Calls

/-- The ids that a call may insert an authorization under. -/
def Call.drawnIds : Call → List String
  | .start draws _ => (List.ofFn draws).map (·.authorizationId)
  | _ => []

theorem ExchangeLeaves.walk {s s' : Store} {deviceCodeHash serverInstanceId : String} {now : Int}
    {ids : List String} (h : ExchangeLeaves s deviceCodeHash serverInstanceId now s') :
    StoreWalk ids s s' := by
  cases h with
  | nothing => exact Walk.refl _
  | expired _ => exact walk_expireAuthorization _ _ s
  | gate _ _ => exact walk_setNextPoll _ _ _ s

theorem ExchangeYields.walk {C : Crates} {drawn : Drawn} {masterKey : String}
    {policy : DeviceSessionPolicy} {now : Int} {s s' : Store} {credentials : Credentials}
    {deviceCodeHash codeVerifier transactionId : String} {ids : List String}
    (h : ExchangeYields C drawn masterKey policy now s deviceCodeHash codeVerifier transactionId s'
      credentials) : StoreWalk ids s s' := by
  cases h with
  | recovered _ _ _ _ => exact Walk.refl _
  | @issued row userId gate _ _ _ _ _ _ _ _ hgate _ _ _ _ _ _ _ _ =>
    obtain ⟨p, nextPollAt, _, rfl⟩ := hgate
    refine Walk.trans (walk_setNextPoll p nextPollAt (timestamp now) s) ?_
    refine Walk.updateWhere fun a ha => moved_open ?_ rfl rfl rfl
    rw [Bool.and_eq_true] at ha
    rw [eq_of_beq ha.2]
    rfl

theorem walk_returned {t : Tables} {α : Type} {p : Work α} {answer : α → Answer} {ids : List String}
    (hp : Moves (TablesWalk ids) p) : Concludes (p >>= fun x => pure (answer x)) t
      (fun t' _ => TablesWalk ids t t') fun t' _ => TablesWalk ids t t' :=
  Moves.bind hp (fun _ => Moves.done _) t

theorem transaction_walks (S : Server) (now : Int) (call : Call) (t : Tables) :
    Concludes (call.transaction S now) t (fun t' _ => TablesWalk call.drawnIds t t')
      fun t' _ => TablesWalk call.drawnIds t t' := by
  cases call with
  | start draws input => exact walk_returned startAuthorization_walk
  | expireByUserCode userCodeHash serverInstanceId => exact walk_returned expireByUserCode_walk
  | review serverInstanceId userCode => exact walk_returned authorizationForReview_walk
  | approve authorizationId userId => exact walk_returned decideAuthorization_walk
  | deny authorizationId => exact walk_returned decideAuthorization_walk
  | poll deviceCode serverInstanceId => exact walk_returned pollAuthorization_walk
  | exchange drawn input =>
    refine Concludes.bind (Q := fun t' _ => TablesWalk [] t t') (Concludes.zoom
      (exchangeBehindReading_yields.mono ?_ fun _ _ hleaves => hleaves.walk)) ?_
    · rintro s' credentials ⟨_, _, _, hyields⟩
      exact hyields.walk
    · exact fun _ _ hwalk => Concludes.done hwalk
  | rotate drawn input =>
    refine Concludes.bind (Q := fun t' _ => TablesWalk [] t t') (Concludes.zoom
      (rotateRefreshToken_yields.mono ?_ ?_)) ?_
    · rintro s' credentials ⟨_, _, hyields⟩
      cases hyields <;> exact Walk.refl _
    · intro s' _ hleaves
      cases hleaves <;> exact Walk.refl _
    · exact fun _ _ hwalk => Concludes.done hwalk
  | authenticate rawToken serverInstanceId =>
    refine walk_returned ?_
    unfold authenticateAccessToken
    refine Moves.bind (Moves.rejectIf _ _) fun _ => Moves.atomically ?_
    unfold authenticateAccessInTransaction
    refine Moves.bind (Moves.select _) fun _ => Moves.bind (Moves.okOr _ _) fun row => ?_
    refine Moves.bind (Moves.ofExcept _) fun _ => Moves.bind (Moves.ofExcept _) fun expiresAt => ?_
    dsimp only
    split
    · exact Moves.bind (walk_write fun t => Walk.refl _) fun _ => Moves.fail _
    · refine Moves.bind (Moves.rejectIf _ _) fun _ => ?_
      refine Moves.bind (walk_write fun t => Walk.refl _) fun _ => ?_
      exact Moves.bind (walk_write fun t => Walk.refl _) fun _ => Moves.done _
  | revoke userId familyId reason =>
    refine walk_returned (walk_onStore (Moves.atomically ?_))
    unfold revokeFamilyInTransaction
    refine Moves.bind (Moves.statement fun s => Walk.refl _) fun updated => ?_
    split
    · exact Moves.bind (Moves.select _) fun _ => Moves.fail _
    · exact Moves.bind (Moves.execute fun s => Walk.refl _) fun _ =>
        Moves.execute fun s => Walk.refl _
  | changeOwnPassword userId currentFamily =>
    refine walk_returned ?_
    unfold changeOwnPassword
    exact Moves.atomically (walk_write fun t => Walk.refl _)
  | setUserStatus userId status =>
    refine walk_returned ?_
    unfold setUserStatus
    exact Moves.atomically (walk_write fun t => Walk.refl _)
  | cleanupRotations limit =>
    refine walk_returned ?_
    unfold cleanupExpiredRotationResults
    exact Moves.bind (Moves.ofExcept _) fun _ => walk_modify fun t => Walk.refl _
  | cleanupAuthorizations limit => exact walk_returned cleanupExpiredAuthorizations_walk
  | eraseExchangeResults => exact walk_returned eraseExpiredExchangeResults_walk

theorem serve_walks {S : Server} {t t' : Tables} {e : Event} {out : Outcome}
    (hserve : serve S t e = some (t', out)) :
    Walk e.call.drawnIds t.store.authorizations t'.store.authorizations := by
  unfold serve at hserve
  rcases hrun : e.call.transaction S e.now e.faults 0 t with ⟨n, left, result⟩
  rw [hrun] at hserve
  cases hserve
  have hwalks := transaction_walks S e.now e.call t
  cases result with
  | ok a => exact hwalks.ok hrun
  | error error => exact hwalks.error hrun

/-! ## Runs -/

/-- The crates give credentials back as they were written. -/
def Crates.Lossless (C : Crates) : Prop :=
  ∀ credentials, C.decodeCredentials (C.encodeCredentials credentials) = some credentials

theorem openCredentials_sealCredentials {C : Crates} (hcodec : C.Lossless) {nonce : FixedBytes 12}
    {masterKey ciphertext : String} {credentials : Credentials} {aad : Bytes}
    (h : sealCredentials C nonce masterKey credentials aad = .ok ciphertext) :
    openCredentials C masterKey ciphertext aad = some credentials := by
  unfold sealCredentials at h
  cases hseal : Crypto.encryptSecret C.secrets nonce masterKey (C.encodeCredentials credentials)
      aad with
  | error _ =>
    rw [hseal] at h
    cases h
  | ok _ =>
    rw [hseal] at h
    cases h
    unfold openCredentials
    rw [Crypto.decryptSecret_encryptSecret hseal]
    exact hcodec credentials

theorem openCredentials_empty (C : Crates) (masterKey : String) (aad : Bytes) :
    openCredentials C masterKey "" aad = none := by
  unfold openCredentials
  rw [Crypto.decryptSecret_empty]
  rfl

/-- The step is an exchange that returned the credentials. -/
structure Exchanged (S : Server) (x : Entry Tables Event Outcome)
    (input : ExchangeAuthorizationInput) (transactionId : String) (credentials : Credentials) :
    Prop where
  call : ∃ drawn, x.event.call = .exchange drawn input
  transaction :
    normalizeTransactionIdDomain S.crates input.exchangeTransactionId = .ok transactionId
  out : x.out = .ok (.credentials credentials)

/-- The authorization of the device code that a step has found. -/
def authorizationOf (S : Server) (t : Tables) (input : ExchangeAuthorizationInput) :
    Option AuthorizationRow :=
  t.store.findAuthorization (hashDeviceToken S.crates input.deviceCode) S.policy.serverInstanceId

/-- Behind the exchange the authorization is consumed, by its transaction and with its result. -/
structure Result (S : Server) (input : ExchangeAuthorizationInput) (transactionId : String)
    (credentials : Credentials) (b : AuthorizationRow) : Prop where
  deviceCodeHash : b.deviceCodeHash = hashDeviceToken S.crates input.deviceCode
  serverInstanceId : b.serverInstanceId = S.policy.serverInstanceId
  consumed : b.status = .consumed
  transaction : b.exchangeTransactionId = some transactionId
  ciphertext : b.exchangeResultCiphertext = "" ∨
    openCredentials S.crates S.masterKey b.exchangeResultCiphertext
      (exchangeResultAad b.id S.policy.serverInstanceId transactionId
        (hashDeviceToken S.crates input.deviceCode)) = some credentials

theorem Result.moved {S : Server} {input : ExchangeAuthorizationInput} {transactionId : String}
    {credentials : Credentials} {a b : AuthorizationRow}
    (h : Result S input transactionId credentials a) (hmoved : Moved a b) :
    Result S input transactionId credentials b := by
  obtain ⟨hconsumed, htransaction, hciphertext⟩ := hmoved.consumed h.consumed
  refine ⟨hmoved.deviceCodeHash.trans h.deviceCodeHash, hmoved.serverInstanceId.trans
    h.serverInstanceId, hconsumed, htransaction.trans h.transaction, ?_⟩
  rcases hciphertext with hsame | hempty
  · rw [hsame, hmoved.id]
    exact h.ciphertext
  · exact .inl hempty

section Keys

variable {S : Server} {t : Tables} {input : ExchangeAuthorizationInput} {a b : AuthorizationRow}

theorem authorizationOf_eq_some (h : authorizationOf S t input = some a) :
    a ∈ t.store.authorizations ∧ a.deviceCodeHash = hashDeviceToken S.crates input.deviceCode ∧
      a.serverInstanceId = S.policy.serverInstanceId := by
  have hfound := List.find?_some h
  rw [Bool.and_eq_true] at hfound
  exact ⟨List.mem_of_find?_eq_some h, eq_of_beq hfound.1, eq_of_beq hfound.2⟩

/-- The device code tells the authorization. -/
theorem authorization_eq (hnodup : (t.store.authorizations.map (·.deviceCodeHash)).Nodup)
    (h : authorizationOf S t input = some a) (hb : b ∈ t.store.authorizations)
    (hhash : b.deviceCodeHash = hashDeviceToken S.crates input.deviceCode) : b = a := by
  obtain ⟨ha, hhash', _⟩ := authorizationOf_eq_some h
  exact eq_of_key hnodup hb ha (hhash.trans hhash'.symm)

end Keys

theorem recoverExchange_eq_ok {C : Crates} {masterKey : String} {policy : DeviceSessionPolicy}
    {now : Int} {row : AuthorizationRow} {transactionId deviceCodeHash : String}
    {credentials : Credentials}
    (h : recoverExchange C masterKey policy now row transactionId deviceCodeHash =
      .ok credentials) : row.exchangeTransactionId = some transactionId ∧
      openCredentials C masterKey row.exchangeResultCiphertext
        (exchangeResultAad row.id policy.serverInstanceId transactionId deviceCodeHash) =
          some credentials := by
  unfold recoverExchange at h
  obtain ⟨_, htransaction, h⟩ := bind_eq_ok.mp h
  obtain ⟨_, _, h⟩ := bind_eq_ok.mp h
  obtain ⟨_, _, h⟩ := bind_eq_ok.mp h
  obtain ⟨_, _, h⟩ := bind_eq_ok.mp h
  obtain ⟨_, _, hopen⟩ := bind_eq_ok.mp h
  exact ⟨not_not.mp (rejectIf_eq_ok.mp htransaction), okOr_eq_ok.mp hopen⟩

/-- What an exchange that returns credentials finds and leaves. -/
theorem exchanged_step {S : Server} (hcodec : S.crates.Lossless) {t u : Tables} {e : Event}
    {out : Outcome} {input : ExchangeAuthorizationInput} {transactionId : String}
    {credentials : Credentials} (hserve : serve S t e = some (u, out))
    (h : Exchanged S ⟨t, e, out⟩ input transactionId credentials) :
    ∃ a, authorizationOf S t input = some a ∧
      pkceMatches S.crates input.codeVerifier a.codeChallenge = true ∧
      (a.status = .approved ∨ a.status = .consumed ∧ a.exchangeTransactionId = some transactionId ∧
        openCredentials S.crates S.masterKey a.exchangeResultCiphertext
          (exchangeResultAad a.id S.policy.serverInstanceId transactionId
            (hashDeviceToken S.crates input.deviceCode)) = some credentials) ∧
      ∃ b ∈ u.store.authorizations, b.id = a.id ∧ Result S input transactionId credentials b := by
  obtain ⟨⟨drawn, hcall⟩, htransaction, hout⟩ := h
  dsimp only at hcall hout
  subst hout
  cases serve_cases hserve with
  | calm _ hnone => exact absurd rfl (hnone credentials)
  | @rotated drawn' input' _ _ _ hcall' _ _ =>
    rw [hcall] at hcall'
    cases hcall'
  | @exchanged drawn' input' transactionId' s' _ hcall' _ htransaction' hyields =>
    rw [hcall] at hcall'
    cases hcall'
    rw [htransaction] at htransaction'
    cases htransaction'
    cases hyields with
    | @recovered row _ hrow hpkce hconsumed hrecover =>
      obtain ⟨htransaction, hopen⟩ := recoverExchange_eq_ok hrecover
      obtain ⟨hmem, hhash, hserver⟩ := authorizationOf_eq_some hrow
      refine ⟨row, hrow, hpkce, .inr ⟨hconsumed, htransaction, hopen⟩, row, hmem, rfl, ?_⟩
      exact ⟨hhash, hserver, hconsumed, htransaction, .inr hopen⟩
    | @issued row userId gate devices device deviceId ciphertext _ hrow hpkce happroved hgate _ _ _
        _ _ hseal _ _ =>
      obtain ⟨hmem, hhash, hserver⟩ := authorizationOf_eq_some hrow
      refine ⟨row, hrow, hpkce, .inl happroved, ?_⟩
      obtain ⟨p, nextPollAt, _, rfl⟩ := hgate
      obtain ⟨g, hg, hid, hghash, hgserver, hgstatus⟩ :
          ∃ g ∈ (t.store.setNextPoll p nextPollAt (timestamp e.now)).authorizations,
            g.id = row.id ∧ g.deviceCodeHash = row.deviceCodeHash ∧
              g.serverInstanceId = row.serverInstanceId ∧ g.status = row.status := by
        refine ⟨_, mem_updateWhere.mpr ⟨row, hmem, rfl⟩, ?_⟩
        split <;> exact ⟨rfl, rfl, rfl, rfl⟩
      have happlies : (g.id == row.id && g.status == .approved) = true := by
        rw [hid, hgstatus, happroved, beq_self_eq_true]
        rfl
      refine ⟨_, mem_updateWhere.mpr ⟨g, hg, (if_pos happlies).symm⟩, hid, ?_⟩
      refine ⟨hghash.trans hhash, hgserver.trans hserver, rfl, rfl, .inr ?_⟩
      dsimp only
      rw [hid]
      exact openCredentials_sealCredentials hcodec hseal

/-! ### One set of credentials -/

/-- No two families are of one authorization. -/
def OneFamily (s : Store) : Prop := (s.families.map (·.authorizationId)).Nodup

theorem serve_oneFamily {S : Server} {t u : Tables} {e : Event} {out : Outcome}
    (h : OneFamily t.store) (hserve : serve S t e = some (u, out)) : OneFamily u.store := by
  unfold OneFamily at h ⊢
  cases serve_cases hserve with
  | calm hcalm _ =>
    rw [rows_column (fun _ _ hkept => hkept.authorizationId) hcalm.families]
    exact h
  | exchanged _ _ _ hyields =>
    cases hyields with
    | recovered _ _ _ _ => exact h
    | issued _ _ _ hgate _ _ hunused _ _ _ _ _ =>
      rw [← rows_column (fun _ _ hkept => hkept.authorizationId) hgate.quiet.families] at h
      refine Eq.subst (motive := List.Nodup) List.map_append.symm ?_
      refine List.Nodup.append h (List.nodup_singleton _)
        (List.disjoint_singleton.mpr fun hin => ?_)
      obtain ⟨f, hf, heq⟩ := List.mem_map.mp hin
      exact hunused f hf heq
  | rotated _ _ hyields =>
    cases hyields with
    | recovered _ _ _ _ _ => exact h
    | issued _ _ _ _ _ _ _ _ =>
      refine (congrArg List.Nodup ?_).mpr h
      refine map_updateWhere (fun f : FamilyRow => f.authorizationId) (fun f => ?_) t.store.families
      rfl

/-- What the exchanges of a run have left. -/
structure Told (S : Server) (tr : List (Entry Tables Event Outcome)) (t : Tables) : Prop where
  idsNodup : (t.store.authorizations.map (·.id)).Nodup
  hashesNodup : (t.store.authorizations.map (·.deviceCodeHash)).Nodup
  oneFamily : OneFamily t.store
  verified : ∀ x ∈ tr, ∀ input transactionId credentials,
    Exchanged S x input transactionId credentials → ∃ a, authorizationOf S x.pre input = some a ∧
      pkceMatches S.crates input.codeVerifier a.codeChallenge = true
  remembered : ∀ x ∈ tr, ∀ input transactionId credentials,
    Exchanged S x input transactionId credentials → ∀ a, authorizationOf S x.pre input = some a →
      ∃ b ∈ t.store.authorizations, b.id = a.id ∧ Result S input transactionId credentials b
  identical : ∀ x ∈ tr, ∀ y ∈ tr, ∀ input input' transactionId transactionId'
    credentials credentials', Exchanged S x input transactionId credentials →
      Exchanged S y input' transactionId' credentials' → input.deviceCode = input'.deviceCode →
        transactionId = transactionId' ∧ credentials = credentials'

theorem Tables.Fresh.told {S : Server} {t : Tables} (h : t.Fresh) : Told S [] t where
  idsNodup := by
    rw [h.authorizations]
    exact List.nodup_nil
  hashesNodup := by
    rw [h.authorizations]
    exact List.nodup_nil
  oneFamily := by
    unfold OneFamily
    rw [h.families]
    exact List.nodup_nil
  verified x hx := by cases hx
  remembered x hx := by cases hx
  identical x hx := by cases hx

section Step

variable {S : Server} {tr : List (Entry Tables Event Outcome)} {t u : Tables} {e : Event}
  {out : Outcome} {input input' : ExchangeAuthorizationInput}
  {transactionId transactionId' : String} {credentials credentials' : Credentials}

/-- An exchange behind one for the same device code returns what that returned. -/
theorem Told.again (h : Told S tr t) (hcodec : S.crates.Lossless)
    (hserve : serve S t e = some (u, out)) {x : Entry Tables Event Outcome} (hx : x ∈ tr)
    (hpast : Exchanged S x input transactionId credentials)
    (hnow : Exchanged S ⟨t, e, out⟩ input' transactionId' credentials')
    (hcode : input.deviceCode = input'.deviceCode) :
    transactionId = transactionId' ∧ credentials = credentials' := by
  obtain ⟨a, ha, _⟩ := h.verified x hx input transactionId credentials hpast
  obtain ⟨b, hb, _, hresult⟩ := h.remembered x hx input transactionId credentials hpast a ha
  obtain ⟨a', ha', _, hstatus, _⟩ := exchanged_step hcodec hserve hnow
  obtain rfl : b = a' := authorization_eq h.hashesNodup ha' hb (hcode ▸ hresult.deviceCodeHash)
  rcases hstatus with happroved | ⟨_, htransaction, hopen⟩
  · rw [hresult.consumed] at happroved
    cases happroved
  · rw [hresult.transaction] at htransaction
    obtain rfl := Option.some.inj htransaction
    refine ⟨rfl, ?_⟩
    rcases hresult.ciphertext with hempty | hsame
    · rw [hempty, openCredentials_empty] at hopen
      cases hopen
    · rw [hcode, hopen] at hsame
      exact (Option.some.inj hsame).symm

theorem Told.step (h : Told S tr t) (hcodec : S.crates.Lossless)
    (hserve : serve S t e = some (u, out)) : Told S (tr ++ [⟨t, e, out⟩]) u := by
  have hwalk := serve_walks hserve
  constructor
  · exact hwalk.idsNodup h.idsNodup
  · exact hwalk.hashesNodup h.hashesNodup
  · exact serve_oneFamily h.oneFamily hserve
  · intro x hx input transactionId credentials hexchanged
    rcases List.mem_append.mp hx with hpast | hnow
    · exact h.verified x hpast input transactionId credentials hexchanged
    · obtain rfl := List.mem_singleton.mp hnow
      obtain ⟨a, ha, hpkce, _⟩ := exchanged_step hcodec hserve hexchanged
      exact ⟨a, ha, hpkce⟩
  · intro x hx input transactionId credentials hexchanged a ha
    rcases List.mem_append.mp hx with hpast | hnow
    · obtain ⟨b, hb, hid, hresult⟩ :=
        h.remembered x hpast input transactionId credentials hexchanged a ha
      obtain ⟨b', hb', hmoved⟩ := hwalk.kept h.idsNodup b hb hresult.consumed
      exact ⟨b', hb', hmoved.id.trans hid, hresult.moved hmoved⟩
    · obtain rfl := List.mem_singleton.mp hnow
      obtain ⟨a', ha', _, _, hleft⟩ := exchanged_step hcodec hserve hexchanged
      obtain rfl := Option.some.inj (ha.symm.trans ha')
      exact hleft
  · intro x hx y hy input input' transactionId transactionId' credentials credentials' hfirst
      hsecond hcode
    rcases List.mem_append.mp hx with hxpast | hxnow
    · rcases List.mem_append.mp hy with hypast | hynow
      · exact h.identical x hxpast y hypast input input' transactionId transactionId' credentials
          credentials' hfirst hsecond hcode
      · obtain rfl := List.mem_singleton.mp hynow
        exact h.again hcodec hserve hxpast hfirst hsecond hcode
    · obtain rfl := List.mem_singleton.mp hxnow
      rcases List.mem_append.mp hy with hypast | hynow
      · obtain ⟨htransaction, hcredentials⟩ :=
          h.again hcodec hserve hypast hsecond hfirst hcode.symm
        exact ⟨htransaction.symm, hcredentials.symm⟩
      · obtain rfl := List.mem_singleton.mp hynow
        obtain ⟨⟨drawn, hcall⟩, htransaction, hout⟩ := hfirst
        obtain ⟨⟨drawn', hcall'⟩, htransaction', hout'⟩ := hsecond
        rw [hcall] at hcall'
        cases hcall'
        rw [htransaction] at htransaction'
        rw [hout] at hout'
        cases htransaction'
        cases hout'
        exact ⟨rfl, rfl⟩

end Step

/-! ### Denied and expired authorizations -/

def drawnIds (tr : List (Entry Tables Event Outcome)) : List String :=
  tr.flatMap fun x => x.event.call.drawnIds

/-- No two authorizations are started under one id. -/
def DistinctDraws (tr : List (Entry Tables Event Outcome)) : Prop := (drawnIds tr).Nodup

/-- Where the authorizations of a run stand, and that none yields credentials and is over as well.
-/
structure Apart (S : Server) (tr : List (Entry Tables Event Outcome)) (t : Tables) : Prop where
  known : ∀ a ∈ t.store.authorizations, a.id ∈ drawnIds tr
  ended : ∀ x ∈ tr, ∀ a ∈ x.pre.store.authorizations, isEnded a.status = true → a.id ∈ drawnIds tr ∧
    ∀ b ∈ t.store.authorizations, b.id = a.id → isEnded b.status = true
  apart : ∀ x ∈ tr, ∀ input transactionId credentials,
    Exchanged S x input transactionId credentials → ∀ a, authorizationOf S x.pre input = some a →
      ∀ y ∈ tr, ∀ b ∈ y.pre.store.authorizations, b.id = a.id → isEnded b.status = false

theorem Tables.Fresh.apart {S : Server} {t : Tables} (h : t.Fresh) : Apart S [] t where
  known a ha := by
    rw [h.authorizations] at ha
    cases ha
  ended x hx := by cases hx
  apart x hx := by cases hx

section Apart

variable {S : Server} {tr : List (Entry Tables Event Outcome)} {t u : Tables} {e : Event}
  {out : Outcome} {input : ExchangeAuthorizationInput} {transactionId : String}
  {credentials : Credentials}

theorem Result.notEnded {b : AuthorizationRow} (h : Result S input transactionId credentials b) :
    isEnded b.status = false := by
  rw [h.consumed]
  rfl

theorem Apart.step (h : Apart S tr t) (htold : Told S tr t) (hcodec : S.crates.Lossless)
    (hserve : serve S t e = some (u, out)) (hdraws : DistinctDraws (tr ++ [⟨t, e, out⟩])) :
    Apart S (tr ++ [⟨t, e, out⟩]) u := by
  have hwalk := serve_walks hserve
  have hids : drawnIds (tr ++ [⟨t, e, out⟩]) = drawnIds tr ++ e.call.drawnIds := by
    unfold drawnIds
    rw [List.flatMap_append, List.flatMap_singleton]
  unfold DistinctDraws at hdraws
  rw [hids, List.nodup_append] at hdraws
  -- What is over when the call begins is over behind it.
  have hstays : ∀ a ∈ t.store.authorizations, isEnded a.status = true →
      ∀ b ∈ u.store.authorizations, b.id = a.id → isEnded b.status = true := by
    intro a ha hended b hb hid
    rcases hwalk.origin b hb with ⟨a', ha', hmoved⟩ | hnew
    · obtain rfl : a' = a := eq_of_key htold.idsNodup ha' ha (hmoved.id.symm.trans hid)
      exact hmoved.ended hended
    · exact absurd hid.symm (hdraws.2.2 a.id (h.known a ha) b.id hnew)
  constructor
  · intro b hb
    rw [hids, List.mem_append]
    rcases hwalk.origin b hb with ⟨a, ha, hmoved⟩ | hnew
    · exact .inl (hmoved.id ▸ h.known a ha)
    · exact .inr hnew
  · intro x hx a ha hended
    rw [hids, List.mem_append]
    rcases List.mem_append.mp hx with hpast | hnow
    · obtain ⟨hknown, hover⟩ := h.ended x hpast a ha hended
      refine ⟨.inl hknown, fun b hb hid => ?_⟩
      rcases hwalk.origin b hb with ⟨a', ha', hmoved⟩ | hnew
      · exact hmoved.ended (hover a' ha' (hmoved.id.symm.trans hid))
      · exact absurd hid.symm (hdraws.2.2 a.id hknown b.id hnew)
    · obtain rfl := List.mem_singleton.mp hnow
      exact ⟨.inl (h.known a ha), hstays a ha hended⟩
  · intro x hx input transactionId credentials hexchanged a ha y hy b hb hid
    rcases List.mem_append.mp hx with hxpast | hxnow
    · rcases List.mem_append.mp hy with hypast | hynow
      · exact h.apart x hxpast input transactionId credentials hexchanged a ha y hypast b hb hid
      · obtain rfl := List.mem_singleton.mp hynow
        obtain ⟨b', hb', hid', hresult⟩ :=
          htold.remembered x hxpast input transactionId credentials hexchanged a ha
        obtain rfl : b' = b := eq_of_key htold.idsNodup hb' hb (hid'.trans hid.symm)
        exact hresult.notEnded
    · obtain rfl := List.mem_singleton.mp hxnow
      obtain ⟨a', ha', _, hstatus, _⟩ := exchanged_step hcodec hserve hexchanged
      obtain rfl := Option.some.inj (ha.symm.trans ha')
      have hopen : isEnded a.status = false := by
        rcases hstatus with happroved | ⟨hconsumed, _⟩
        · rw [happroved]
          rfl
        · rw [hconsumed]
          rfl
      have hmem := (authorizationOf_eq_some ha).1
      rcases List.mem_append.mp hy with hypast | hynow
      · refine Bool.eq_false_iff.mpr fun hended => ?_
        have hover := (h.ended y hypast b hb hended).2 a hmem hid.symm
        rw [hopen] at hover
        cases hover
      · obtain rfl := List.mem_singleton.mp hynow
        rw [eq_of_key htold.idsNodup hb hmem hid]
        exact hopen

end Apart

/-- In every run from empty tables, whatever calls come between: all exchanges of one device code
that return credentials return the same, to the same transaction; each was given the verifier of the
stored challenge; an authorization has one family at most; and where authorizations are started
under distinct ids, one that yields credentials is in no state of the run denied or expired. -/
theorem one_credential_set (S : Server) (hcodec : S.crates.Lossless) {t₀ t : Tables}
    {tr : List (Entry Tables Event Outcome)} (hfresh : t₀.Fresh) (hrun : Run (serve S) t₀ tr t) :
    (∀ x ∈ tr, ∀ y ∈ tr, ∀ input input' transactionId transactionId' credentials credentials',
      Exchanged S x input transactionId credentials →
        Exchanged S y input' transactionId' credentials' → input.deviceCode = input'.deviceCode →
          transactionId = transactionId' ∧ credentials = credentials') ∧
    (∀ x ∈ tr, ∀ input transactionId credentials, Exchanged S x input transactionId credentials →
      ∃ a, authorizationOf S x.pre input = some a ∧
        pkceMatches S.crates input.codeVerifier a.codeChallenge = true) ∧
    (t.store.families.map (·.authorizationId)).Nodup ∧
    (DistinctDraws tr → ∀ x ∈ tr, ∀ input transactionId credentials,
      Exchanged S x input transactionId credentials → ∀ a, authorizationOf S x.pre input = some a →
        ∀ s, (s = t ∨ ∃ y ∈ tr, s = y.pre) → ∀ b ∈ s.store.authorizations, b.id = a.id →
          b.status ≠ .denied ∧ b.status ≠ .expired) := by
  have htold : Told S tr t := by
    refine Run.history (C := fun _ _ => True) hfresh.told ?_ hrun fun _ _ => trivial
    exact fun _ _ _ _ _ _ htold _ hserve => htold.step hcodec hserve
  have hboth : DistinctDraws tr → Told S tr t ∧ Apart S tr t := by
    refine Run.history (C := fun _ _ => True)
      (I := fun tr t => DistinctDraws tr → Told S tr t ∧ Apart S tr t)
      (fun _ => ⟨hfresh.told, hfresh.apart⟩) ?_ hrun fun _ _ => trivial
    intro tr t e u o _ hpast _ hserve hdraws
    have hbefore : DistinctDraws tr := by
      unfold DistinctDraws drawnIds at hdraws ⊢
      rw [List.flatMap_append] at hdraws
      exact hdraws.of_append_left
    obtain ⟨htold, hapart⟩ := hpast hbefore
    exact ⟨htold.step hcodec hserve, hapart.step htold hcodec hserve hdraws⟩
  refine ⟨htold.identical, htold.verified, htold.oneFamily, ?_⟩
  intro hdraws x hx input transactionId credentials hexchanged a ha s hs b hb hid
  have hnot : isEnded b.status = false := by
    rcases hs with rfl | ⟨y, hy, rfl⟩
    · obtain ⟨b', hb', hid', hresult⟩ :=
        htold.remembered x hx input transactionId credentials hexchanged a ha
      obtain rfl : b' = b := eq_of_key htold.idsNodup hb' hb (hid'.trans hid.symm)
      exact hresult.notEnded
    · exact (hboth hdraws).2.apart x hx input transactionId credentials hexchanged a ha y hy
        b hb hid
  unfold isEnded at hnot
  constructor
  · intro hstatus
    rw [hstatus] at hnot
    cases hnot
  · intro hstatus
    rw [hstatus] at hnot
    cases hnot

theorem spellingCrates_lossless : spellingCrates.Lossless := by
  intro c
  have hdistinct : Json.Distinct (credentialsJson c) := by
    refine .arr fun j hj => ?_
    simp only [List.mem_cons, List.not_mem_nil, or_false] at hj
    rcases hj with rfl | rfl | rfl | rfl | rfl | rfl | rfl | rfl | rfl | rfl | rfl | rfl <;>
      constructor
  have hparse := @Json.parse_stringify _ hdistinct "" (by simp)
  rw [String.append_empty] at hparse
  unfold spellingCrates
  dsimp only
  rw [hparse]
  rfl

/-- The code is exchanged again, as another transaction. -/
def exchangedTwice : List Event :=
  sampleRun ++
    [atSecond 95 (.exchange (drawnOf 3) { exchangeOnce with exchangeTransactionId := "other" })]

def isExchange (x : Entry Tables Event Outcome) : Bool :=
  match x.event.call, x.out with
  | .exchange _ _, .ok _ => true
  | _, _ => false

theorem exchanged_twice_is_one_set :
    ∃ tr t, exec (serve sampleServer) oneUser exchangedTwice = some (tr, t) ∧
      (tr.filter isExchange).length = 1 ∧
      (∀ x ∈ tr, ∀ y ∈ tr, ∀ input input' transactionId transactionId' credentials credentials',
        Exchanged sampleServer x input transactionId credentials →
          Exchanged sampleServer y input' transactionId' credentials' →
            input.deviceCode = input'.deviceCode →
              transactionId = transactionId' ∧ credentials = credentials') ∧
      ∀ x ∈ tr, ∀ input transactionId credentials,
        Exchanged sampleServer x input transactionId credentials → ∀ a,
          authorizationOf sampleServer x.pre input = some a →
            ∀ b ∈ t.store.authorizations, b.id = a.id →
              b.status ≠ .denied ∧ b.status ≠ .expired := by
  have hlook : (exec (serve sampleServer) oneUser exchangedTwice).map (fun r =>
      ((r.1.filter isExchange).length, drawnIds r.1)) = some (1, ["A", "B", "C", "D", "E"]) := by
    decide +kernel
  obtain ⟨⟨tr, t⟩, hexec, heq⟩ := Option.map_eq_some_iff.mp hlook
  obtain ⟨hlength, hids⟩ := Prod.mk.inj heq
  have hdraws : DistinctDraws tr := by
    unfold DistinctDraws
    dsimp only at hids
    rw [hids]
    decide
  obtain ⟨hidentical, _, _, hapart⟩ :=
    one_credential_set sampleServer spellingCrates_lossless oneUser_fresh (run_of_exec hexec)
  refine ⟨tr, t, hexec, hlength, hidentical, ?_⟩
  intro x hx input transactionId credentials hexchanged a ha
  exact hapart hdraws x hx input transactionId credentials hexchanged a ha t (.inl rfl)

end Sessions
end Devices
end Yuance
