import Yuance.Auth.BrowserRows
import Yuance.Devices.Chains

/-!
# Yuance.Auth.RefreshRotation

The rotation of a browser refresh token, with any number of calls at work. A token is looked up
outside the transaction; the transaction rotates a row that is still active, and stores the new
tokens in it; a call that comes too late reads them from there.

* `Stage`: how far a call of `refresh_session` has come.
* `Turned`, `Stage.turn`: what its next statement may do.
* `Rotations`: what the calls of a run have left.
* `refresh_rotation_is_single_issue`: one pair of tokens for a token, and none once a user's
  rotations are closed.
-/

namespace Yuance
namespace Auth
namespace BrowserSessions

open Lib Yuance.Platform

variable {S : Server}

/-! ## One call -/

/-- A refresh that is about to rotate. -/
def rotating (S : Server) (input : RefreshInput) (row : RefreshSessionRecord)
    (sessionCiphertext refreshCiphertext : String) : Task Response := do
  let session ← rotateRefreshSession S input row sessionCiphertext refreshCiphertext
  pure (.issued session)

/-- A refresh that came too late. -/
def retrying (S : Server) (input : RefreshInput) : Task Response := do
  let found ← query (.findRefreshSession (hashRefreshToken S input.rawRefreshToken))
  let session ← Call.ofExcept (recoverFound S (hashRefreshToken S input.rawRefreshToken) found)
  pure (.issued session)

inductive Stage (S : Server) (db : Db) (input : RefreshInput) : Task Response → Prop where
  | reading : Stage S db input (start S (.refreshSession input))
  | rotating {row : RefreshSessionRecord} {sessionCiphertext refreshCiphertext : String}
      (hrow : ∃ r ∈ db.refreshSessions.rows, r.id = row.id ∧
        r.refreshTokenHash = hashRefreshToken S input.rawRefreshToken)
      (hsession : encryptToken S input.drawn.sessionNonce input.drawn.rawToken
        (rotationRecoveryAad row.id (hashRefreshToken S input.rawRefreshToken)) =
          .ok sessionCiphertext)
      (hrefresh : encryptToken S input.drawn.refreshNonce input.drawn.refreshToken
        (rotationRecoveryAad row.id (hashRefreshToken S input.rawRefreshToken)) =
          .ok refreshCiphertext) :
      Stage S db input (rotating S input row sessionCiphertext refreshCiphertext)
  | retrying : Stage S db input (retrying S input)
  | ended {p : Task Response} (h : ∀ st k, p ≠ .ask st k) : Stage S db input p

theorem Stage.kept {db db' : Db} {input : RefreshInput} {p : Task Response}
    (h : Stage S db input p) (hkept : Kept db db') : Stage S db' input p := by
  cases h with
  | reading => exact .reading
  | rotating hrow hsession hrefresh =>
    obtain ⟨r, hr, hid, hhash⟩ := hrow
    obtain ⟨r', hr', haged⟩ := hkept.refreshSessions r hr
    exact .rotating ⟨r', hr', haged.id.trans hid, haged.refreshTokenHash.trans hhash⟩ hsession
      hrefresh
  | retrying => exact .retrying
  | ended h => exact .ended h

/-- The row of the token is over, and what it still stores is the pair. -/
def Gives (S : Server) (db : Db) (refreshTokenHash : String) (pair : IssuedSession) : Prop :=
  ∃ r ∈ db.refreshSessions.rows, r.refreshTokenHash = refreshTokenHash ∧
    r.sessionStatus ≠ .active ∧ (r.rotationRecoveryExpiresAt = none ∨
      recoverRotatedSession S r.record refreshTokenHash = .ok (some pair))

/-- The row of the token stores the pair. -/
def Stores (S : Server) (db : Db) (refreshTokenHash : String) (pair : IssuedSession) : Prop :=
  ∃ r ∈ db.refreshSessions.rows, r.refreshTokenHash = refreshTokenHash ∧
    r.sessionStatus = .revoked ∧ r.rotationRecoveryExpiresAt ≠ none ∧
      recoverRotatedSession S r.record refreshTokenHash = .ok (some pair)

/-- The row of the token is active. -/
def Usable (db : Db) (refreshTokenHash : String) : Prop :=
  ∃ r ∈ db.refreshSessions.rows, r.refreshTokenHash = refreshTokenHash ∧ r.sessionStatus = .active

/-- What a statement of a refresh may do; `p` is the call behind it. -/
inductive Turned (S : Server) (db db' : Db) (input : RefreshInput) : Task Response → Prop where
  | quiet {p : Task Response} (hdb : db' = db) (hstage : Stage S db input p)
      (hresult : ∀ pair, p ≠ .done (.issued (some pair))) : Turned S db db' input p
  | recovered {pair : IssuedSession} (hdb : db' = db)
      (hstores : Stores S db (hashRefreshToken S input.rawRefreshToken) pair) :
      Turned S db db' input (.done (.issued (some pair)))
  | rotated (husable : Usable db (hashRefreshToken S input.rawRefreshToken))
      (hgives : Gives S db' (hashRefreshToken S input.rawRefreshToken) input.drawn.issued)
      (hsessions : db'.sessions.rows.length = db.sessions.rows.length + 1)
      (hrefresh : db'.refreshSessions.rows.length = db.refreshSessions.rows.length + 1) :
      Turned S db db' input (.done (.issued (some input.drawn.issued)))

section Turn

variable {db : Db} {input : RefreshInput}

theorem turned_failed {e : AppError} : Turned S db db input (.fail e) :=
  .quiet rfl (.ended fun _ _ h => by cases h) fun _ h => by cases h

theorem turned_none : Turned S db db input (.done (.issued none)) :=
  .quiet rfl (.ended fun _ _ h => by cases h) fun _ h => by cases h

/-- A call that ends with what `x` recovers. -/
theorem turned_recover {x : Except AppError (Option IssuedSession)}
    (hx : ∀ pair, x = .ok (some pair) →
      Stores S db (hashRefreshToken S input.rawRefreshToken) pair) :
    Turned S db db input (do
      let session ← (Call.ofExcept x : Task (Option IssuedSession))
      pure (.issued session)) := by
  cases x with
  | error e => exact turned_failed
  | ok session =>
    cases session with
    | none => exact turned_none
    | some pair => exact .recovered rfl (hx pair rfl)

theorem findRefreshSession_eq_some {now : Int} {h : String} {row : RefreshSessionRecord}
    (hfind : db.findRefreshSession now h = some row) :
    ∃ r ∈ db.refreshSessions.rows, r.refreshTokenHash = h ∧ r.record = row ∧
      (r.sessionStatus = .active ∨
        r.sessionStatus = .revoked ∧ r.rotationRecoveryExpiresAt ≠ none) := by
  obtain ⟨r, hr, hrecord⟩ := Option.map_eq_some_iff.mp hfind
  have hfindable : db.isFindable now h r = true := List.find?_some hr
  unfold Db.isFindable at hfindable
  obtain ⟨hkey, hstatus⟩ := Bool.and_eq_true_iff.mp hfindable
  have hhash := eq_of_beq (Bool.and_eq_true_iff.mp hkey).1
  refine ⟨r, List.mem_of_find?_eq_some hr, hhash, hrecord, ?_⟩
  rcases Bool.or_eq_true_iff.mp hstatus with hactive | hrevoked
  · exact .inl (eq_of_beq (Bool.and_eq_true_iff.mp hactive).1)
  · obtain ⟨hrotated, hrecovery⟩ := Bool.and_eq_true_iff.mp hrevoked
    refine .inr ⟨eq_of_beq (Bool.and_eq_true_iff.mp hrotated).1, fun hnone => ?_⟩
    rw [hnone] at hrecovery
    cases hrecovery

theorem recover_revoked {row : RefreshSessionRecord} {h : String} {pair : IssuedSession}
    (hpair : recoverRotatedSession S row h = .ok (some pair)) : row.sessionStatus = .revoked := by
  unfold recoverRotatedSession at hpair
  by_contra hstatus
  rw [if_pos (.inl hstatus)] at hpair
  cases hpair

/-- What is recovered is what a row stores. -/
theorem stores_of_find {now : Int} {h : String} {row : RefreshSessionRecord} {pair : IssuedSession}
    (hfind : db.findRefreshSession now h = some row)
    (hpair : recoverRotatedSession S row h = .ok (some pair)) : Stores S db h pair := by
  obtain ⟨r, hr, hhash, rfl, hstatus⟩ := findRefreshSession_eq_some hfind
  have hrevoked : r.sessionStatus = .revoked := recover_revoked hpair
  rcases hstatus with hactive | ⟨_, hrecovery⟩
  · rw [hactive] at hrevoked
    cases hrevoked
  · exact ⟨r, hr, hhash, hrevoked, hrecovery, hpair⟩

theorem turned_retry {now : Int} :
    Turned S db db input (do
      let session ← (Call.ofExcept (recoverFound S (hashRefreshToken S input.rawRefreshToken)
        (db.findRefreshSession now (hashRefreshToken S input.rawRefreshToken))) :
          Task (Option IssuedSession))
      pure (.issued session)) := by
  refine turned_recover fun pair hpair => ?_
  cases hfind : db.findRefreshSession now (hashRefreshToken S input.rawRefreshToken) with
  | none =>
    rw [hfind] at hpair
    cases hpair
  | some row =>
    rw [hfind] at hpair
    exact stores_of_find hfind hpair

/-- A refresh from its first answer on. -/
theorem turned_found {now : Int} {row : RefreshSessionRecord}
    (hfind : db.findRefreshSession now (hashRefreshToken S input.rawRefreshToken) = some row) :
    Turned S db db input (do
      let session ← refreshRow S input row
      pure (.issued session)) := by
  unfold refreshRow
  dsimp only
  by_cases hrevoked : row.sessionStatus = .revoked
  · rw [if_pos hrevoked]
    exact turned_recover fun pair hpair => stores_of_find hfind hpair
  · rw [if_neg hrevoked]
    cases hsession : encryptToken S input.drawn.sessionNonce input.drawn.rawToken
        (rotationRecoveryAad row.id (hashRefreshToken S input.rawRefreshToken)) with
    | error e => exact turned_failed
    | ok sessionCiphertext =>
      cases hrefresh : encryptToken S input.drawn.refreshNonce input.drawn.refreshToken
          (rotationRecoveryAad row.id (hashRefreshToken S input.rawRefreshToken)) with
      | error e => exact turned_failed
      | ok refreshCiphertext =>
        obtain ⟨r, hr, hhash, hrecord, _⟩ := findRefreshSession_eq_some hfind
        have hid : r.id = row.id := hrecord ▸ rfl
        exact .quiet rfl (.rotating ⟨r, hr, hid, hhash⟩ hsession hrefresh) fun _ h => by cases h

/-- What the row of a rotation stores gives its tokens back. -/
theorem recover_rotated {row : RefreshSessionRecord} {drawn : Drawn}
    {h sessionCiphertext refreshCiphertext : String} (hstatus : row.sessionStatus = .revoked)
    (hreason : row.revokeReason = "rotated")
    (hsession : encryptToken S drawn.sessionNonce drawn.rawToken (rotationRecoveryAad row.id h) =
      .ok sessionCiphertext)
    (hrefresh : encryptToken S drawn.refreshNonce drawn.refreshToken
      (rotationRecoveryAad row.id h) = .ok refreshCiphertext)
    (hs : row.rotatedSessionTokenCiphertext = some sessionCiphertext)
    (hr : row.rotatedRefreshTokenCiphertext = some refreshCiphertext) :
    recoverRotatedSession S row h = .ok (some drawn.issued) := by
  have hnot : ¬(row.sessionStatus ≠ .revoked ∨ row.revokeReason ≠ "rotated") := by
    rintro (hno | hno)
    · exact hno hstatus
    · exact hno hreason
  unfold recoverRotatedSession
  rw [if_neg hnot, hs, hr]
  unfold encryptToken at hsession hrefresh
  dsimp only
  unfold decryptPair
  rw [Crypto.decryptSecret_encryptSecret hsession, ok_bind,
    Crypto.decryptSecret_encryptSecret hrefresh, ok_bind]
  rfl

/-- The transaction of a rotation. -/
theorem turned_rotate {now : Int} {row : RefreshSessionRecord}
    {sessionCiphertext refreshCiphertext : String} {r : Rotation} {db' : Db}
    (hrow : ∃ r ∈ db.refreshSessions.rows, r.id = row.id ∧
      r.refreshTokenHash = hashRefreshToken S input.rawRefreshToken)
    (hsession : encryptToken S input.drawn.sessionNonce input.drawn.rawToken
      (rotationRecoveryAad row.id (hashRefreshToken S input.rawRefreshToken)) =
        .ok sessionCiphertext)
    (hrefresh : encryptToken S input.drawn.refreshNonce input.drawn.refreshToken
      (rotationRecoveryAad row.id (hashRefreshToken S input.rawRefreshToken)) =
        .ok refreshCiphertext)
    (hid : r.id = row.id) (hs : r.sessionCiphertext = sessionCiphertext)
    (hr : r.refreshCiphertext = refreshCiphertext)
    (hany : db.refreshSessions.rows.any (Db.isRotatable r.id) = true)
    (hinsert : (db.markRotated now r).insertSession now r.next = .ok db') :
    Turned S db db' input (.done (.issued (some input.drawn.issued))) := by
  obtain ⟨q, hq, hrotatable⟩ := List.any_eq_true.mp hany
  obtain ⟨hqid, hactive⟩ := Bool.and_eq_true_iff.mp hrotatable
  obtain ⟨q', hq', hq'id, hhash⟩ := hrow
  obtain rfl : q = q' :=
    eq_of_key db.refreshSessions.ids hq hq' ((eq_of_beq hqid).trans (hid.trans hq'id.symm))
  have hinserted := insertSession_inserted hinsert
  obtain ⟨a, hsessions, _⟩ := hinserted.sessions
  obtain ⟨b, hrows, _⟩ := hinserted.refreshSessions
  refine .rotated ⟨q, hq, hhash, eq_of_beq hactive⟩ ?_ ?_ ?_
  · have hmem : Db.rotated now r q ∈ (db.markRotated now r).refreshSessions.rows :=
      mem_updateWhere.mpr ⟨q, hq, (if_pos hrotatable).symm⟩
    have hbehind : Db.rotated now r q ∈ db'.refreshSessions.rows :=
      hrows ▸ List.mem_append_left _ hmem
    refine ⟨_, hbehind, hhash, fun h => (by cases h), .inr ?_⟩
    have haad : (Db.rotated now r q).record.id = row.id := hq'id
    refine recover_rotated rfl rfl ?_ ?_ (congrArg some hs) (congrArg some hr)
    · rw [haad]
      exact hsession
    · rw [haad]
      exact hrefresh
  · rw [hsessions, List.length_append, List.length_singleton]
    rfl
  · rw [hrows, List.length_append, List.length_singleton]
    unfold Db.markRotated RefreshSessionTable.update updateWhere
    dsimp only
    rw [List.length_map]

/-- The next statement of a refresh. -/
theorem Stage.turn {st : Statement} {k : st.Answer → Task Response} {p : Task Response}
    (h : Stage S db input p) (hp : p = .ask st k) (m : Moment) :
    Turned S db (perform S m st db).1 input (answered k (perform S m st db).2) := by
  unfold perform
  split
  · exact turned_failed
  cases h with
  | reading =>
    have hshape : start S (.refreshSession input) =
        .ask (.findRefreshSession (hashRefreshToken S input.rawRefreshToken)) fun found => (do
          let session ← refreshFound S input found
          pure (.issued session)) := rfl
    rw [hshape] at hp
    cases hp
    cases hfind : db.findRefreshSession m.now (hashRefreshToken S input.rawRefreshToken) with
    | none =>
      unfold execute answered
      dsimp only
      rw [hfind]
      exact turned_none
    | some row =>
      unfold execute answered
      dsimp only
      rw [hfind]
      exact turned_found hfind
  | @rotating row sessionCiphertext refreshCiphertext hrow hsession hrefresh =>
    cases hp
    unfold execute Db.rotate
    dsimp only
    split
    · rename_i hany
      cases hinsert : (db.markRotated m.now _).insertSession m.now _ with
      | error e => exact turned_failed
      | ok db' => exact turned_rotate hrow hsession hrefresh rfl rfl rfl hany hinsert
    · exact .quiet rfl .retrying fun _ h => by cases h
  | retrying =>
    cases hp
    exact turned_retry
  | ended h => exact absurd hp (h st k)

end Turn

/-! ## Runs -/

/-- The turn is one of a call that refreshes with the token; `rs` are the calls in the order they
came in. -/
def presents (rs : List Request) (raw : String) (x : Step) : Bool :=
  match x.event with
  | .begin _ => false
  | .resume i _ =>
    match rs[i]? with
    | some (.refreshSession input) => input.rawRefreshToken == raw
    | _ => false

/-- The state behind a step. -/
def behind (S : Server) (x : Step) : State :=
  match serve S x.pre x.event with
  | some (t, _) => t
  | none => x.pre

/-- What the call returned whose turn it was, if it has returned. -/
def outcome (S : Server) (x : Step) : Option Response :=
  match x.event with
  | .begin _ => none
  | .resume i _ => ((behind S x).calls[i]?).bind Call.result

/-- In this step a call that refreshes with the token returns the pair. -/
structure Yields (S : Server) (rs : List Request) (raw : String) (pair : IssuedSession) (x : Step) :
    Prop where
  presents : presents rs raw x = true
  outcome : outcome S x = some (.issued (some pair))

/-- The sum of `f` over the steps of the calls that refresh with the token. -/
def total (f : Step → Nat) (rs : List Request) (raw : String) (tr : List Step) : Nat :=
  ((tr.filter (presents rs raw)).map f).sum

/-- The rows of `sessions` that the calls have created from the token. -/
def newSessions (S : Server) (raw : String) (tr : List Step) : Nat :=
  total (fun x => (behind S x).db.sessions.rows.length - x.pre.db.sessions.rows.length) (begun tr)
    raw tr

/-- The rows of `refresh_sessions` that the calls have created from the token. -/
def newRefreshSessions (S : Server) (raw : String) (tr : List Step) : Nat :=
  total (fun x =>
    (behind S x).db.refreshSessions.rows.length - x.pre.db.refreshSessions.rows.length) (begun tr)
    raw tr

/-- The row of the token is over, and stores nothing. -/
def Closed (db : Db) (refreshTokenHash : String) : Prop :=
  ∃ r ∈ db.refreshSessions.rows, r.refreshTokenHash = refreshTokenHash ∧
    r.sessionStatus ≠ .active ∧ r.rotationRecoveryExpiresAt = none

def Spent (db : Db) (refreshTokenHash : String) : Prop :=
  ∃ r ∈ db.refreshSessions.rows, r.refreshTokenHash = refreshTokenHash ∧ r.sessionStatus ≠ .active

section Rows

variable {db db' : Db} {h : String} {pair pair' : IssuedSession}

theorem Gives.kept (hgives : Gives S db h pair) (hkept : Kept db db') : Gives S db' h pair := by
  obtain ⟨r, hr, hhash, hended, hstored⟩ := hgives
  obtain ⟨r', hr', haged⟩ := hkept.refreshSessions r hr
  refine ⟨r', hr', haged.refreshTokenHash.trans hhash, haged.ended hended ▸ hended, ?_⟩
  rcases haged.stored hended with hnone | ⟨hrecovery, hrecord⟩
  · exact .inl hnone
  · rw [hrecovery, hrecord]
    exact hstored

theorem Closed.kept (hclosed : Closed db h) (hkept : Kept db db') : Closed db' h := by
  obtain ⟨r, hr, hhash, hended, hnone⟩ := hclosed
  obtain ⟨r', hr', haged⟩ := hkept.refreshSessions r hr
  refine ⟨r', hr', haged.refreshTokenHash.trans hhash, haged.ended hended ▸ hended, ?_⟩
  rcases haged.stored hended with hnone' | ⟨hrecovery, _⟩
  · exact hnone'
  · exact hrecovery.trans hnone

theorem Spent.kept (hspent : Spent db h) (hkept : Kept db db') : Spent db' h := by
  obtain ⟨r, hr, hhash, hended⟩ := hspent
  obtain ⟨r', hr', haged⟩ := hkept.refreshSessions r hr
  exact ⟨r', hr', haged.refreshTokenHash.trans hhash, haged.ended hended ▸ hended⟩

/-- A token has one row. -/
theorem row_eq {r r' : RefreshSessionRow} (hr : r ∈ db.refreshSessions.rows)
    (hr' : r' ∈ db.refreshSessions.rows) (hhash : r.refreshTokenHash = h)
    (hhash' : r'.refreshTokenHash = h) : r = r' :=
  eq_of_key db.refreshSessions.hashes hr hr' (hhash.trans hhash'.symm)

theorem Usable.not_spent (husable : Usable db h) : ¬Spent db h := by
  rintro ⟨r, hr, hhash, hended⟩
  obtain ⟨r', hr', hhash', hactive⟩ := husable
  obtain rfl := row_eq hr hr' hhash hhash'
  exact hended hactive

theorem Gives.spent (hgives : Gives S db h pair) : Spent db h := by
  obtain ⟨r, hr, hhash, hended, _⟩ := hgives
  exact ⟨r, hr, hhash, hended⟩

theorem Closed.spent (hclosed : Closed db h) : Spent db h := by
  obtain ⟨r, hr, hhash, hended, _⟩ := hclosed
  exact ⟨r, hr, hhash, hended⟩

theorem Stores.not_closed (hstores : Stores S db h pair) : ¬Closed db h := by
  rintro ⟨r, hr, hhash, _, hnone⟩
  obtain ⟨r', hr', hhash', _, hrecovery, _⟩ := hstores
  obtain rfl := row_eq hr hr' hhash hhash'
  exact hrecovery hnone

/-- What is stored is what was given. -/
theorem Stores.eq_of_gives (hstores : Stores S db h pair') (hgives : Gives S db h pair) :
    pair = pair' := by
  obtain ⟨r, hr, hhash, _, hrecovery, hpair'⟩ := hstores
  obtain ⟨r', hr', hhash', _, hstored⟩ := hgives
  obtain rfl := row_eq hr hr' hhash hhash'
  rcases hstored with hnone | hpair
  · exact absurd hnone hrecovery
  · rw [hpair] at hpair'
    exact Option.some.inj (Except.ok.inj hpair')

theorem Stores.gives (hstores : Stores S db h pair) : Gives S db h pair := by
  obtain ⟨r, hr, hhash, hrevoked, _, hpair⟩ := hstores
  refine ⟨r, hr, hhash, fun hactive => ?_, .inr hpair⟩
  rw [hrevoked] at hactive
  cases hactive

end Rows

section Steps

variable {s u : State} {e : Turn Request Moment} {o : Unit} {tr : List Step} {rs cs : List Request}
  {raw : String}

theorem turn_cases (hstep : serve S s e = some (u, o)) :
    (∃ c, e = .begin c ∧ u = { s with calls := s.calls ++ [start S c] }) ∨
      ∃ i m st k, e = .resume i m ∧ s.calls[i]? = some (.ask st k) ∧
        u = { db := (perform S m st s.db).1
              calls := s.calls.set i (answered k (perform S m st s.db).2) } := by
  cases e with
  | begin c =>
    cases hstep
    exact .inl ⟨c, rfl, rfl⟩
  | resume i m =>
    unfold serve Lib.serve at hstep
    dsimp only at hstep
    split at hstep
    · rename_i st k hget
      cases hstep
      exact .inr ⟨i, m, st, k, rfl, hget, rfl⟩
    · cases hstep

theorem behind_eq (hstep : serve S s e = some (u, o)) : behind S ⟨s, e, o⟩ = u := by
  unfold behind
  rw [hstep]

theorem step_kept (hstep : serve S s e = some (u, o)) : Kept s.db u.db := by
  rcases turn_cases hstep with ⟨c, rfl, rfl⟩ | ⟨i, m, st, k, rfl, _, rfl⟩
  · exact .refl s.db
  · exact perform_kept S m st s.db

/-- The calls that a step adds. -/
def begins : Turn Request Moment → List Request
  | .begin c => [c]
  | .resume _ _ => []

theorem begun_append : begun (tr ++ [(⟨s, e, o⟩ : Step)]) = begun tr ++ begins e := by
  unfold begun
  rw [List.filterMap_append]
  cases e <;> rfl

theorem presents_append {x : Step} (hx : ∀ i m, x.event = .resume i m → i < rs.length) :
    presents (rs ++ cs) raw x = presents rs raw x := by
  unfold presents
  cases hevent : x.event with
  | begin c => rfl
  | resume i m =>
    dsimp only
    rw [List.getElem?_append_left (hx i m hevent)]

theorem presents_eq_true {x : Step} (h : presents rs raw x = true) :
    ∃ i m input, x.event = .resume i m ∧ rs[i]? = some (.refreshSession input) ∧
      input.rawRefreshToken = raw := by
  unfold presents at h
  split at h
  · cases h
  · rename_i i m hevent
    split at h
    · rename_i input hget
      exact ⟨i, m, input, hevent, hget, eq_of_beq h⟩
    · cases h

theorem total_append (f : Step → Nat) {x : Step}
    (htr : ∀ y ∈ tr, ∀ i m, y.event = .resume i m → i < rs.length) :
    total f (rs ++ cs) raw (tr ++ [x]) =
      total f rs raw tr + if presents (rs ++ cs) raw x then f x else 0 := by
  have hsame : tr.filter (presents (rs ++ cs) raw) = tr.filter (presents rs raw) :=
    List.filter_congr fun y hy => presents_append (htr y hy)
  unfold total
  rw [List.filter_append, hsame, List.map_append, List.sum_append, List.filter_cons]
  split
  · rfl
  · rfl

end Steps

/-- What the calls of a run have left. -/
structure Rotations (S : Server) (tr : List Step) (s : State) : Prop where
  length : (begun tr).length = s.calls.length
  resumed : ∀ x ∈ tr, ∀ i m, x.event = .resume i m → i < (begun tr).length
  stages : ∀ (i : Nat) input p, (begun tr)[i]? = some (Request.refreshSession input) →
    s.calls[i]? = some p → Stage S s.db input p
  gives : ∀ x ∈ tr, ∀ raw pair, Yields S (begun tr) raw pair x →
    Gives S s.db (hashRefreshToken S raw) pair
  same : ∀ x ∈ tr, ∀ y ∈ tr, ∀ raw pair pair', Yields S (begun tr) raw pair x →
    Yields S (begun tr) raw pair' y → pair = pair'
  single : ∀ raw, (newSessions S raw tr = 0 ∧ newRefreshSessions S raw tr = 0) ∨
    newSessions S raw tr = 1 ∧ newRefreshSessions S raw tr = 1 ∧
      Spent s.db (hashRefreshToken S raw)
  closed : ∀ before x after, tr = before ++ x :: after → ∀ h, Closed (behind S x).db h →
    Closed s.db h ∧ ∀ y ∈ after, ∀ raw pair, hashRefreshToken S raw = h →
      ¬Yields S (begun tr) raw pair y

section Histories

variable {s u : State} {e : Turn Request Moment} {o : Unit} {tr : List Step} {raw : String}

/-- A turn of a call that refreshes with the token. -/
theorem Rotations.turned (h : Rotations S tr s) (hstep : serve S s e = some (u, o))
    (hpresents : presents (begun tr ++ begins e) raw ⟨s, e, o⟩ = true) :
    ∃ input p, input.rawRefreshToken = raw ∧ Turned S s.db u.db input p ∧
      outcome S ⟨s, e, o⟩ = p.result := by
  obtain ⟨i, m, input, hevent, hget, hraw⟩ := presents_eq_true hpresents
  rcases turn_cases hstep with ⟨c, rfl, _⟩ | ⟨j, m', st, k, rfl, hcall, rfl⟩
  · cases hevent
  · cases hevent
    rw [show begins (.resume i m) = [] from rfl, List.append_nil] at hget
    refine ⟨input, _, hraw, (h.stages i input _ hget hcall).turn rfl m, ?_⟩
    have hlt : i < s.calls.length := (List.getElem?_eq_some_iff.mp hcall).1
    unfold outcome
    dsimp only
    rw [behind_eq hstep]
    dsimp only
    rw [List.getElem?_set_self hlt]
    rfl

/-- A step that returns a pair. -/
theorem Rotations.yielded (h : Rotations S tr s) (hstep : serve S s e = some (u, o))
    {pair : IssuedSession} (hyields : Yields S (begun tr ++ begins e) raw pair ⟨s, e, o⟩) :
    (u.db = s.db ∧ Stores S s.db (hashRefreshToken S raw) pair) ∨
      Usable s.db (hashRefreshToken S raw) ∧ Gives S u.db (hashRefreshToken S raw) pair := by
  obtain ⟨input, p, rfl, hturned, hresult⟩ := h.turned hstep hyields.presents
  rw [hyields.outcome] at hresult
  cases hturned with
  | quiet hdb hstage hnot =>
    exact absurd (Call.result_eq_some hresult.symm) (hnot pair)
  | recovered hdb hstores =>
    obtain rfl := Option.some.inj (Response.issued.inj (Option.some.inj hresult))
    exact .inl ⟨hdb, hstores⟩
  | rotated husable hgives hsessions hrefresh =>
    obtain rfl := Option.some.inj (Response.issued.inj (Option.some.inj hresult))
    exact .inr ⟨husable, hgives⟩

/-- What a turn of a refresh adds to the tables. -/
theorem Rotations.grown (h : Rotations S tr s) (hstep : serve S s e = some (u, o))
    (hpresents : presents (begun tr ++ begins e) raw ⟨s, e, o⟩ = true) :
    u.db = s.db ∨ Usable s.db (hashRefreshToken S raw) ∧ Spent u.db (hashRefreshToken S raw) ∧
      u.db.sessions.rows.length = s.db.sessions.rows.length + 1 ∧
      u.db.refreshSessions.rows.length = s.db.refreshSessions.rows.length + 1 := by
  obtain ⟨input, p, rfl, hturned, _⟩ := h.turned hstep hpresents
  cases hturned with
  | quiet hdb hstage hnot => exact .inl hdb
  | recovered hdb hstores => exact .inl hdb
  | rotated husable hgives hsessions hrefresh =>
    exact .inr ⟨husable, hgives.spent, hsessions, hrefresh⟩

/-- An old step, seen with the calls that came in later. -/
theorem Rotations.old (h : Rotations S tr s) {x : Step} (hx : x ∈ tr) {pair : IssuedSession}
    (hyields : Yields S (begun tr ++ begins e) raw pair x) : Yields S (begun tr) raw pair x where
  presents := presents_append (h.resumed x hx) ▸ hyields.presents
  outcome := hyields.outcome

theorem rotations_start (db : Db) : Rotations S [] { db, calls := [] } where
  length := rfl
  resumed x hx := by cases hx
  stages i input p hget := by cases hget
  gives x hx := by cases hx
  same x hx := by cases hx
  single raw := .inl ⟨rfl, rfl⟩
  closed before x after h := by
    have hlength := congrArg List.length h
    rw [List.length_append, List.length_cons] at hlength
    cases hlength

theorem Rotations.step_stages (h : Rotations S tr s) (hstep : serve S s e = some (u, o))
    {i : Nat} {input : RefreshInput} {p : Task Response}
    (hget : (begun tr ++ begins e)[i]? = some (.refreshSession input))
    (hcall : u.calls[i]? = some p) : Stage S u.db input p := by
  have hkept := step_kept hstep
  rcases turn_cases hstep with ⟨c, rfl, rfl⟩ | ⟨j, m, st, k, rfl, hasked, rfl⟩
  · rcases getElem?_concat hget with hold | ⟨rfl, rfl⟩
    · have hlt := (List.getElem?_eq_some_iff.mp hold).1
      rw [h.length] at hlt
      rw [List.getElem?_append_left hlt] at hcall
      exact h.stages i input p hold hcall
    · rw [h.length, List.getElem?_concat_length] at hcall
      rw [← Option.some.inj hcall]
      exact .reading
  · rw [show begins (.resume j m) = [] from rfl, List.append_nil] at hget
    rcases set_cases hcall with ⟨rfl, rfl⟩ | ⟨_, hother⟩
    · have hturned := (h.stages i input _ hget hasked).turn rfl m
      generalize answered k (perform S m st s.db).2 = p at hturned ⊢
      cases hturned with
      | quiet hdb hstage hnot => exact hstage.kept hkept
      | recovered hdb hstores => exact .ended fun _ _ h => by cases h
      | rotated husable hgives hsessions hrefresh => exact .ended fun _ _ h => by cases h
    · exact (h.stages i input p hget hother).kept hkept

theorem Rotations.step_single (h : Rotations S tr s) (hstep : serve S s e = some (u, o))
    (raw : String) :
    (newSessions S raw (tr ++ [⟨s, e, o⟩]) = 0 ∧
      newRefreshSessions S raw (tr ++ [⟨s, e, o⟩]) = 0) ∨
    newSessions S raw (tr ++ [⟨s, e, o⟩]) = 1 ∧
      newRefreshSessions S raw (tr ++ [⟨s, e, o⟩]) = 1 ∧ Spent u.db (hashRefreshToken S raw) := by
  unfold newSessions newRefreshSessions
  rw [begun_append, total_append _ h.resumed, total_append _ h.resumed, behind_eq hstep]
  have hpast := h.single raw
  unfold newSessions newRefreshSessions at hpast
  have hkept := step_kept hstep
  by_cases hpresents : presents (begun tr ++ begins e) raw ⟨s, e, o⟩ = true
  · rw [if_pos hpresents, if_pos hpresents]
    rcases h.grown hstep hpresents with hdb | ⟨husable, hspent, hsessions, hrefresh⟩
    · rw [hdb, Nat.sub_self, Nat.sub_self, Nat.add_zero, Nat.add_zero]
      exact hpast
    · rw [hsessions, hrefresh, Nat.add_sub_cancel_left, Nat.add_sub_cancel_left]
      rcases hpast with ⟨hzero, hzero'⟩ | ⟨_, _, hover⟩
      · exact .inr ⟨by rw [hzero], by rw [hzero'], hspent⟩
      · exact absurd hover husable.not_spent
  · rw [if_neg hpresents, if_neg hpresents, Nat.add_zero, Nat.add_zero]
    rcases hpast with hzero | ⟨hone, hone', hover⟩
    · exact .inl hzero
    · exact .inr ⟨hone, hone', hover.kept hkept⟩

theorem Rotations.step (h : Rotations S tr s) (hstep : serve S s e = some (u, o)) :
    Rotations S (tr ++ [⟨s, e, o⟩]) u := by
  have hkept := step_kept hstep
  have hlength : (begun tr ++ begins e).length = u.calls.length := by
    rw [List.length_append, h.length]
    rcases turn_cases hstep with ⟨c, rfl, rfl⟩ | ⟨j, m, st, k, rfl, hasked, rfl⟩
    · rw [show (begins (.begin c)).length = [start S c].length from rfl, ← List.length_append]
    · exact List.length_set.symm
  constructor
  · rw [begun_append]
    exact hlength
  · intro x hx i m hevent
    rw [begun_append]
    rcases List.mem_append.mp hx with hold | hnew
    · rw [List.length_append]
      exact Nat.lt_add_right _ (h.resumed x hold i m hevent)
    · obtain rfl := List.mem_singleton.mp hnew
      rw [hlength]
      rcases turn_cases hstep with ⟨c, rfl, _⟩ | ⟨j, m', st, k, rfl, hasked, rfl⟩
      · cases hevent
      · cases hevent
        rw [List.length_set]
        exact (List.getElem?_eq_some_iff.mp hasked).1
  · intro i input p hget hcall
    rw [begun_append] at hget
    exact h.step_stages hstep hget hcall
  · intro x hx raw pair hyields
    rw [begun_append] at hyields
    rcases List.mem_append.mp hx with hold | hnew
    · exact (h.gives x hold raw pair (h.old hold hyields)).kept hkept
    · obtain rfl := List.mem_singleton.mp hnew
      rcases h.yielded hstep hyields with ⟨hdb, hstores⟩ | ⟨_, hgives⟩
      · exact hdb ▸ hstores.gives
      · exact hgives
  · intro x hx y hy raw pair pair' hyields hyields'
    rw [begun_append] at hyields hyields'
    -- a later pair is the one that was given before
    have again : ∀ z ∈ tr, ∀ {pair pair'}, Yields S (begun tr ++ begins e) raw pair z →
        Yields S (begun tr ++ begins e) raw pair' ⟨s, e, o⟩ → pair = pair' := by
      intro z hz pair pair' hpast hnow
      have hgives := h.gives z hz raw pair (h.old hz hpast)
      rcases h.yielded hstep hnow with ⟨_, hstores⟩ | ⟨husable, _⟩
      · exact hstores.eq_of_gives hgives
      · exact absurd hgives.spent husable.not_spent
    rcases List.mem_append.mp hx with hold | hnew
    · rcases List.mem_append.mp hy with hold' | hnew'
      · exact h.same x hold y hold' raw pair pair' (h.old hold hyields) (h.old hold' hyields')
      · obtain rfl := List.mem_singleton.mp hnew'
        exact again x hold hyields hyields'
    · obtain rfl := List.mem_singleton.mp hnew
      rcases List.mem_append.mp hy with hold' | hnew'
      · exact (again y hold' hyields' hyields).symm
      · obtain rfl := List.mem_singleton.mp hnew'
        have hsame := hyields.outcome.symm.trans hyields'.outcome
        exact Option.some.inj (Response.issued.inj (Option.some.inj hsame))
  · exact h.step_single hstep
  · intro before x after hcut hash hclosed
    rw [begun_append]
    rcases cut_append hcut with ⟨rfl, rfl, rfl⟩ | ⟨rest, rfl, htr⟩
    · rw [behind_eq hstep] at hclosed
      exact ⟨hclosed, fun y hy => by cases hy⟩
    · obtain ⟨hclosed, hnone⟩ := h.closed before x rest htr hash hclosed
      refine ⟨hclosed.kept hkept, fun y hy raw pair hraw hyields => ?_⟩
      rcases List.mem_append.mp hy with hold | hnew
      · have hin : y ∈ tr := htr ▸ List.mem_append_right _ (List.mem_cons_of_mem _ hold)
        exact hnone y hold raw pair hraw (h.old hin hyields)
      · obtain rfl := List.mem_singleton.mp hnew
        rcases h.yielded hstep hyields with ⟨_, hstores⟩ | ⟨husable, _⟩
        · exact hstores.not_closed (hraw ▸ hclosed)
        · exact husable.not_spent (hraw ▸ hclosed.spent)

end Histories

/-! ## The end of the recovery -/

/-- The step is the transaction of `revoke_refresh_session`, of `reset_user_password` or of a
`set_user_status` that disables, for the user. -/
inductive EndsRecovery (x : Step) (userId : Int) : Prop where
  | revoke {i : Nat} {m : Moment} {row : RefreshSessionRow} {reason : String}
      (hevent : x.event = .resume i m) (hfault : m.fault = none)
      (hrow : x.pre.db.refreshSessions.rows.find? (·.refreshTokenHash == row.refreshTokenHash) =
        some row) (huser : row.userId = userId)
      (hst : nextStatement x.pre i = some (.revokeRefreshSession row.refreshTokenHash reason))
  | reset {i : Nat} {m : Moment} {passwordHash : String} (hevent : x.event = .resume i m)
      (hfault : m.fault = none)
      (hst : nextStatement x.pre i = some (.resetPassword userId passwordHash))
  | disable {i : Nat} {m : Moment} {status : String} (hevent : x.event = .resume i m)
      (hfault : m.fault = none) (hstatus : status ≠ "active")
      (hst : nextStatement x.pre i = some (.setUserStatus userId status))

section Ends

variable {db : Db} {userId : Int} {r : RefreshSessionRow}

theorem clear_closed (hr : r ∈ db.refreshSessions.rows) (huser : r.userId = userId)
    (hended : r.sessionStatus ≠ .active) :
    Closed (db.clearBrowserRefreshRotationRecovery userId) r.refreshTokenHash := by
  by_cases hstored : r.rotationRecoveryExpiresAt.isSome = true
  · have hp : Db.isRecoverable userId r = true :=
      Bool.and_eq_true_iff.mpr ⟨beq_iff_eq.mpr huser, hstored⟩
    exact ⟨Db.cleared r, mem_updateWhere.mpr ⟨r, hr, (if_pos hp).symm⟩, rfl, hended, rfl⟩
  · have hp : ¬Db.isRecoverable userId r = true := fun h =>
      hstored (Bool.and_eq_true_iff.mp h).2
    exact ⟨r, mem_updateWhere.mpr ⟨r, hr, (if_neg hp).symm⟩, rfl, hended,
      Option.not_isSome_iff_eq_none.mp hstored⟩

/-- Rows of the user that are over before the tables change, and are cleared behind it. -/
theorem closed_of_clear {db' : Db} (hkept : Kept db db') (hr : r ∈ db.refreshSessions.rows)
    (huser : r.userId = userId) (hended : r.sessionStatus ≠ .active) :
    Closed (db'.clearBrowserRefreshRotationRecovery userId) r.refreshTokenHash := by
  obtain ⟨r', hr', haged⟩ := hkept.refreshSessions r hr
  rw [← haged.refreshTokenHash]
  exact clear_closed hr' (haged.userId.trans huser) (haged.ended hended ▸ hended)

theorem endBrowserSessions_closed {reason : String} (hr : r ∈ db.refreshSessions.rows)
    (huser : r.userId = userId) (hended : r.sessionStatus ≠ .active) :
    Closed (db.endBrowserSessions userId reason) r.refreshTokenHash :=
  closed_of_clear ((revokeSessions_kept db _ _).trans (revokeRefreshSessions_kept _ _ _)) hr huser
    hended

theorem behind_resume {x : Step} {i : Nat} {m : Moment} {st : Statement}
    (hevent : x.event = .resume i m) (hfault : m.fault = none)
    (hst : nextStatement x.pre i = some st) : (behind S x).db = (execute S m x.pre.db st).1 := by
  unfold nextStatement at hst
  split at hst
  · rename_i st' k hget
    cases hst
    unfold behind
    rw [hevent]
    unfold serve Lib.serve
    dsimp only
    rw [hget]
    dsimp only
    unfold perform
    rw [hfault]
  · cases hst

theorem EndsRecovery.closed {x : Step} (h : EndsRecovery x userId)
    (hr : r ∈ x.pre.db.refreshSessions.rows) (huser : r.userId = userId)
    (hended : r.sessionStatus ≠ .active) : Closed (behind S x).db r.refreshTokenHash := by
  cases h with
  | @revoke i m row reason hevent hfault hrow howner hst =>
    rw [behind_resume hevent hfault hst]
    unfold execute Db.revokeRefreshSession
    dsimp only
    rw [hrow]
    dsimp only
    rw [howner]
    exact closed_of_clear (revokeRefreshSessions_kept _ _ _) hr huser hended
  | reset hevent hfault hst =>
    rw [behind_resume hevent hfault hst]
    exact endBrowserSessions_closed hr huser hended
  | @disable i m status hevent hfault hstatus hst =>
    rw [behind_resume hevent hfault hst]
    unfold execute Db.setUserStatus
    dsimp only
    rw [if_pos hstatus]
    exact endBrowserSessions_closed hr huser hended

end Ends

theorem refresh_rotation_is_single_issue (S : Server) (db : Db) {tr : List Step} {s : State}
    (hrun : Run (serve S) { db, calls := [] } tr s) :
    (∀ raw, newSessions S raw tr ≤ 1 ∧ newRefreshSessions S raw tr ≤ 1) ∧
    (∀ x ∈ tr, ∀ y ∈ tr, ∀ raw pair pair', Yields S (begun tr) raw pair x →
      Yields S (begun tr) raw pair' y → pair = pair') ∧
    ∀ before x after, tr = before ++ x :: after → ∀ userId, EndsRecovery x userId →
      ∀ r ∈ x.pre.db.refreshSessions.rows, r.userId = userId → r.sessionStatus = .revoked →
        r.revokeReason = "rotated" → ∀ y ∈ after, ∀ raw pair,
          hashRefreshToken S raw = r.refreshTokenHash → ¬Yields S (begun tr) raw pair y := by
  have hleft : Rotations S tr s := by
    refine Run.history (C := fun _ _ => True) (rotations_start db) ?_ hrun fun _ _ => trivial
    exact fun _ _ _ _ _ _ h _ hstep => h.step hstep
  refine ⟨fun raw => ?_, hleft.same, ?_⟩
  · rcases hleft.single raw with ⟨hzero, hzero'⟩ | ⟨hone, hone', _⟩
    · rw [hzero, hzero']
      exact ⟨Nat.zero_le 1, Nat.zero_le 1⟩
    · rw [hone, hone']
      exact ⟨Nat.le_refl 1, Nat.le_refl 1⟩
  · intro before x after hcut userId hends r hr huser hrevoked _ y hy raw pair hraw
    have hended : r.sessionStatus ≠ .active := by
      rw [hrevoked]
      exact fun h => by cases h
    exact (hleft.closed before x after hcut _ (hends.closed hr huser hended)).2 y hy raw pair hraw

/-- A password is its own hash. -/
def plainPasswords : PasswordPrims where
  hashPassword password _ := .ok password
  verifyPassword password passwordHash := .ok (password == passwordHash)

def plainServer : Server where
  passwords := plainPasswords
  devices := Devices.Sessions.sampleServer

/-- One user, with one refresh token. -/
def signedIn : Db where
  devices := Devices.Sessions.oneUser
  passwords := [⟨1, "old password"⟩]
  sessions := { rows := [], hashes := List.nodup_nil }
  refreshSessions :=
    { rows := [⟨1, hashRefreshToken plainServer "refresh-000-0", 1, .active, 10000, "", none, none,
        none⟩]
      ids := List.nodup_singleton _
      hashes := List.nodup_singleton _ }

def refreshOnce (n : Char) : RefreshInput where
  rawRefreshToken := "refresh-000-0"
  accessTtlSeconds := 100
  refreshTtlSeconds := 1000
  rotationRecoveryTtlSeconds := 30
  drawn :=
    { rawToken := String.ofList ("session-000-".toList ++ [n])
      refreshToken := String.ofList ("refresh-000-".toList ++ [n])
      sessionNonce := .fill 12 0
      refreshNonce := .fill 12 1 }

/-- The `i`-th call makes its next statement, ten seconds in. -/
def makesNext (i : Nat) : Turn Request Moment := .resume i ⟨10000000000, none, fun _ => false⟩

/-- Two calls find the token before either rotates it; then its user logs out. -/
def twoRefreshes : List (Turn Request Moment) :=
  [.begin (.refreshSession (refreshOnce '1')), .begin (.refreshSession (refreshOnce '2')),
    makesNext 0, makesNext 1, makesNext 0, makesNext 1, makesNext 1,
    .begin (.revokeRefreshSession "refresh-000-1" "logout"), makesNext 2,
    .begin (.refreshSession (refreshOnce '3')), makesNext 3]

/-- The pairs that the calls returned. -/
def pairs (s : State) : List (Option IssuedSession) :=
  s.calls.map fun p =>
    match p.result with
    | some (.issued session) => session
    | _ => none

theorem two_refreshes_are_single_issue :
    ∃ tr s, exec (serve plainServer) { db := signedIn, calls := [] } twoRefreshes = some (tr, s) ∧
      pairs s = [some (refreshOnce '1').drawn.issued, some (refreshOnce '1').drawn.issued, none,
        none] ∧
      (∀ raw, newSessions plainServer raw tr ≤ 1 ∧ newRefreshSessions plainServer raw tr ≤ 1) ∧
      ∀ x ∈ tr, ∀ y ∈ tr, ∀ raw pair pair', Yields plainServer (begun tr) raw pair x →
        Yields plainServer (begun tr) raw pair' y → pair = pair' := by
  have hlook : (exec (serve plainServer) { db := signedIn, calls := [] } twoRefreshes).map
      (fun r => pairs r.2) = some [some (refreshOnce '1').drawn.issued,
        some (refreshOnce '1').drawn.issued, none, none] := by decide +kernel
  obtain ⟨⟨tr, s⟩, hexec, hpairs⟩ := Option.map_eq_some_iff.mp hlook
  obtain ⟨hsingle, hsame, _⟩ := refresh_rotation_is_single_issue plainServer signedIn
    (run_of_exec hexec)
  exact ⟨tr, s, hexec, hpairs, hsingle, hsame⟩

end BrowserSessions
end Auth
end Yuance
