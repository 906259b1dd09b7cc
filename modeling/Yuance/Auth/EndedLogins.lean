import Yuance.Auth.RefreshRotation
import Yuance.Devices.EndedTokens
import Yuance.Lib.Seen

/-!
# Yuance.Auth.EndedLogins

What the transactions of `api/src/domains/users.rs` end. `reset_user_password`, and
`set_user_status` when it disables the user, revoke the browser sessions of the user and take away
what their rotations stored; `change_own_password` keeps the session that asks and revokes the
others, with the families of the other devices. `revoke_session` and `revoke_refresh_session` of
`auth.rs` log a browser out, `revoke_family_for_user` a device.

* `Token`, `Accepts`: the four kinds of token, and the step in which one is accepted.
* `Ends`: the tokens that a transaction ends.
* `Dead`: a token that no call accepts again.
* `ended_logins_stay_ended`: what a transaction ended is accepted in no step behind it.
-/

namespace Yuance
namespace Auth
namespace BrowserSessions

open Lib Yuance.Platform

variable {S : Server}

/-! ## Tokens -/

inductive Token where
  | session (rawToken : String)
  | refresh (refreshToken : String)
  | access (accessToken : String)
  | deviceRefresh (refreshToken : String)

/-- The step in which a device call returns the answer. -/
def DeviceAnswers (S : Server) (call : Devices.Sessions.Call) (answer : Devices.Sessions.Answer)
    (y : Step) : Prop :=
  ∃ i c, c.val = call ∧ Answers (perform S) i (.device c) (.ok answer) y

/-- In this step `user_from_raw_session`, `refresh_session`, `authenticate_access_token` or
`rotate_refresh_token` accepts the token. -/
def Accepts (S : Server) (rs : List Request) (y : Step) : Token → Prop
  | .session rawToken => ∃ i user,
      Answers (perform S) i (.userFromTokenHash (hashSessionToken S rawToken)) (some user) y
  | .refresh refreshToken => ∃ pair, Yields S rs refreshToken pair y
  | .access accessToken => ∃ serverInstanceId access,
      DeviceAnswers S (.authenticate accessToken serverInstanceId) (.access access) y
  | .deviceRefresh refreshToken => ∃ drawn input credentials, input.refreshToken = refreshToken ∧
      DeviceAnswers S (.rotate drawn input) (.credentials credentials) y

/-! ## What the transactions end -/

/-- The token belongs to a browser session of the user, other than those of the hashes. -/
inductive BrowserToken (S : Server) (db : Db) (userId : Int)
    (exceptToken exceptRefresh : Option String) : Token → Prop where
  | session {r : SessionRow} {rawToken : String} (hr : r ∈ db.sessions.rows)
      (hhash : r.sessionTokenHash = hashSessionToken S rawToken) (huser : r.userId = userId)
      (hother : exceptToken ≠ some r.sessionTokenHash) :
      BrowserToken S db userId exceptToken exceptRefresh (.session rawToken)
  | refresh {r : RefreshSessionRow} {refreshToken : String} (hr : r ∈ db.refreshSessions.rows)
      (hhash : r.refreshTokenHash = hashRefreshToken S refreshToken) (huser : r.userId = userId)
      (hother : exceptRefresh ≠ some r.refreshTokenHash) :
      BrowserToken S db userId exceptToken exceptRefresh (.refresh refreshToken)

/-- The family is one of the user, other than that of the device that asks. -/
def OtherFamily (db : Db) (userId : Int) (currentFamily : Option String) (familyId : String) :
    Prop :=
  familyId ∈ db.devices.store.families.map (·.id) ∧
    ∀ f ∈ db.devices.store.families, f.id = familyId →
      f.userId = userId ∧ ∀ current, currentFamily = some current → f.id ≠ trim current

/-- The token belongs to such a family. -/
inductive DeviceToken (S : Server) (db : Db) (of : String → Prop) : Token → Prop where
  | access {a : Devices.Sessions.SessionRow} {accessToken : String}
      (ha : a ∈ db.devices.store.sessions)
      (hhash : a.accessTokenHash =
        Devices.Sessions.hashDeviceToken S.devices.crates accessToken)
      (hfamily : of a.familyId) : DeviceToken S db of (.access accessToken)
  | deviceRefresh {c : Devices.Sessions.CredentialRow} {refreshToken : String}
      (hc : c ∈ db.devices.store.credentials)
      (hhash : c.refreshTokenHash =
        Devices.Sessions.hashDeviceToken S.devices.crates refreshToken)
      (hfamily : of c.familyId) : DeviceToken S db of (.deviceRefresh refreshToken)

/-- The tokens that the transaction ends. -/
inductive Ends (S : Server) (m : Moment) (db : Db) : Statement → Token → Prop where
  | loggedOut {r : SessionRow} {rawToken reason : String} (hr : r ∈ db.sessions.rows)
      (hhash : r.sessionTokenHash = hashSessionToken S rawToken) :
      Ends S m db (.revokeSession (hashSessionToken S rawToken) reason) (.session rawToken)
  | refreshRevoked {r : RefreshSessionRow} {refreshToken reason : String}
      (hr : r ∈ db.refreshSessions.rows)
      (hhash : r.refreshTokenHash = hashRefreshToken S refreshToken) :
      Ends S m db (.revokeRefreshSession (hashRefreshToken S refreshToken) reason)
        (.refresh refreshToken)
  | reset {userId : Int} {passwordHash : String} {token : Token}
      (h : BrowserToken S db userId none none token) :
      Ends S m db (.resetPassword userId passwordHash) token
  | disabled {userId : Int} {status : String} {token : Token} (hstatus : status ≠ "active")
      (h : BrowserToken S db userId none none token) :
      Ends S m db (.setUserStatus userId status) token
  | changedBrowser {userId : Int} {passwordHash : String}
      {exceptToken exceptRefresh currentFamily : Option String} {token : Token}
      (h : BrowserToken S db userId exceptToken exceptRefresh token) :
      Ends S m db (.changeOwnPassword userId passwordHash exceptToken exceptRefresh currentFamily)
        token
  | changedDevice {userId : Int} {passwordHash : String}
      {exceptToken exceptRefresh currentFamily : Option String} {token : Token}
      (h : DeviceToken S db (OtherFamily db userId currentFamily) token) :
      Ends S m db (.changeOwnPassword userId passwordHash exceptToken exceptRefresh currentFamily)
        token
  | signedOut {call : DeviceCall} {userId : Int} {familyId reason : String}
      {answer : Devices.Sessions.Answer} {token : Token}
      (hcall : call.val = .revoke userId familyId reason)
      (hanswer : (deviceOutcome S m db call).2 = .ok answer)
      (h : DeviceToken S db (· = familyId) token) : Ends S m db (.device call) token

/-! ## Tokens that are dead -/

/-- The session has a row, which is over. -/
def SessionEnded (db : Db) (tokenHash : String) : Prop :=
  ∃ r ∈ db.sessions.rows, r.sessionTokenHash = tokenHash ∧ r.sessionStatus ≠ .active

def Dead (S : Server) (db : Db) : Token → Prop
  | .session rawToken => SessionEnded db (hashSessionToken S rawToken)
  | .refresh refreshToken => Closed db (hashRefreshToken S refreshToken)
  | .access accessToken => Devices.Sessions.AccessEnded db.devices.store
      (Devices.Sessions.hashDeviceToken S.devices.crates accessToken)
  | .deviceRefresh refreshToken => Devices.Sessions.RefreshEnded db.devices.store
      (Devices.Sessions.hashDeviceToken S.devices.crates refreshToken)

section Statements

variable {db db' : Db} {m : Moment} {token : Token}

/-- What a statement does to the tables of the devices. -/
inductive DevicesTurned (S : Server) (db db' : Db) : Prop where
  | calm (h : Devices.Sessions.Calm db.devices db'.devices)
  | served {e : Devices.Sessions.Event} {out : Devices.Sessions.Outcome}
      (h : Devices.Sessions.serve S.devices db.devices e = some (db'.devices, out))

theorem DevicesTurned.of_eq (h : db'.devices = db.devices) : DevicesTurned S db db' := by
  refine .calm ?_
  rw [h]
  exact Devices.Sessions.Quiet.refl _

theorem device_serve (S : Server) (m : Moment) (db : Db) (call : DeviceCall) :
    Devices.Sessions.serve S.devices db.devices ⟨call.val, m.now, m.faults⟩ =
      some (deviceOutcome S m db call) := rfl

theorem orKeep_devices {α : Type} {a : α} {x : Except AppError Db}
    (h : ∀ db', x = .ok db' → db'.devices = db.devices) :
    (db.orKeep a x).1.devices = db.devices := by
  cases x with
  | ok db' => exact h db' rfl
  | error e => rfl

theorem rotate_devices (db : Db) (now : Int) (r : Rotation) :
    (db.rotate now r).1.devices = db.devices := by
  unfold Db.rotate
  split
  · exact orKeep_devices fun db' h => (insertSession_inserted h).devices
  · rfl

theorem execute_devices (S : Server) (m : Moment) (db : Db) (st : Statement) :
    DevicesTurned S db (execute S m db st).1 := by
  cases st with
  | insertSession n => exact .of_eq (orKeep_devices fun db' h => (insertSession_inserted h).devices)
  | revokeRefreshSession refreshTokenHash reason =>
    refine .of_eq ?_
    unfold execute Db.revokeRefreshSession
    dsimp only
    split <;> rfl
  | touchRefreshSession refreshTokenHash ttlSeconds =>
    refine .of_eq ?_
    unfold execute Db.touchRefreshSession
    dsimp only
    split
    · split <;> rfl
    · rfl
  | rotate r => exact .of_eq (rotate_devices db m.now r)
  | changeOwnPassword userId passwordHash tokenHash refreshHash family =>
    exact .calm (Devices.Sessions.revokeOtherFamilies_calm db.devices userId family)
  | setUserStatus userId status =>
    refine .calm ?_
    unfold execute Db.setUserStatus
    dsimp only
    split
    · exact Devices.Sessions.statusSet_calm db.devices userId status
    · exact Devices.Sessions.statusSet_calm db.devices userId status
  | device call => exact .served (device_serve S m db call)
  | _ => exact .of_eq rfl

theorem perform_devices (S : Server) (m : Moment) (st : Statement) (db : Db) :
    DevicesTurned S db (perform S m st db).1 := by
  unfold perform
  split
  · exact .of_eq rfl
  · exact execute_devices S m db st

theorem DevicesTurned.unique (h : DevicesTurned S db db')
    (hunique : Devices.Sessions.TokensUnique db.devices.store) :
    Devices.Sessions.TokensUnique db'.devices.store := by
  cases h with
  | calm h => exact hunique.quiet h
  | served h => exact hunique.served h

theorem SessionEnded.kept {tokenHash : String} (hended : SessionEnded db tokenHash)
    (hkept : Kept db db') : SessionEnded db' tokenHash := by
  obtain ⟨r, hr, hhash, hover⟩ := hended
  obtain ⟨r', hr', haged⟩ := hkept.sessions r hr
  exact ⟨r', hr', haged.sessionTokenHash.trans hhash, haged.ended hover ▸ hover⟩

theorem Dead.kept (hdead : Dead S db token) (hkept : Kept db db')
    (hdevices : DevicesTurned S db db') : Dead S db' token := by
  cases token with
  | session rawToken => exact SessionEnded.kept hdead hkept
  | refresh refreshToken => exact Closed.kept hdead hkept
  | access accessToken =>
    cases hdevices with
    | calm h => exact Devices.Sessions.AccessEnded.quiet hdead h
    | served h => exact Devices.Sessions.AccessEnded.served hdead h
  | deviceRefresh refreshToken =>
    cases hdevices with
    | calm h => exact Devices.Sessions.RefreshEnded.quiet hdead h
    | served h => exact Devices.Sessions.RefreshEnded.served hdead h

/-- A session that is over is refused. -/
theorem SessionEnded.refused {tokenHash : String} (hended : SessionEnded db tokenHash) (now : Int) :
    db.userFromTokenHash now tokenHash = none := by
  obtain ⟨r, hr, hhash, hover⟩ := hended
  have hnone : (db.sessions.rows.find? fun r =>
      Db.isLive now tokenHash r && db.activeUser r.userId) = none := by
    refine List.find?_eq_none.mpr fun q hq hlive => ?_
    obtain ⟨hlive, _⟩ := Bool.and_eq_true_iff.mp hlive
    obtain ⟨hlive, _⟩ := Bool.and_eq_true_iff.mp hlive
    obtain ⟨hsame, hactive⟩ := Bool.and_eq_true_iff.mp hlive
    obtain rfl := eq_of_key db.sessions.hashes hq hr ((eq_of_beq hsame).trans hhash.symm)
    exact hover (eq_of_beq hactive)
  unfold Db.userFromTokenHash
  rw [hnone]
  rfl

theorem answers_ok {st : Statement} {i : Nat} {a : st.Answer} {y : Step}
    (h : Answers (perform S) i st a y) : ∃ m, (execute S m y.pre.db st).2 = .ok a := by
  obtain ⟨m, _, _, hanswer⟩ := h
  unfold perform at hanswer
  split at hanswer
  · cases hanswer
  · exact ⟨m, hanswer⟩

theorem DeviceAnswers.served {call : Devices.Sessions.Call} {answer : Devices.Sessions.Answer}
    {y : Step} (h : DeviceAnswers S call answer y) :
    ∃ e t, e.call = call ∧
      Devices.Sessions.serve S.devices y.pre.db.devices e = some (t, .ok answer) := by
  obtain ⟨i, c, rfl, hanswers⟩ := h
  obtain ⟨m, hok⟩ := answers_ok hanswers
  refine ⟨⟨c.val, m.now, m.faults⟩, (deviceOutcome S m y.pre.db c).1, rfl, ?_⟩
  rw [device_serve, ← Except.ok.inj hok]

/-- A token that is dead is refused, if the token of a refresh that is over yields nothing. -/
theorem Dead.refused {rs : List Request} {y : Step} (hdead : Dead S y.pre.db token)
    (hrefresh : ∀ refreshToken pair, token = .refresh refreshToken →
      ¬Yields S rs refreshToken pair y) : ¬Accepts S rs y token := by
  cases token with
  | session rawToken =>
    rintro ⟨i, user, hanswers⟩
    obtain ⟨m, hok⟩ := answers_ok hanswers
    have hfound : y.pre.db.userFromTokenHash m.now (hashSessionToken S rawToken) = some user :=
      Except.ok.inj hok
    rw [SessionEnded.refused hdead] at hfound
    cases hfound
  | refresh refreshToken =>
    rintro ⟨pair, hyields⟩
    exact hrefresh refreshToken pair rfl hyields
  | access accessToken =>
    rintro ⟨serverInstanceId, access, hanswers⟩
    obtain ⟨e, t, hcall, hserve⟩ := hanswers.served
    exact Devices.Sessions.AccessEnded.refused hdead hcall hserve access rfl
  | deviceRefresh refreshToken =>
    rintro ⟨drawn, input, credentials, rfl, hanswers⟩
    obtain ⟨e, t, hcall, hserve⟩ := hanswers.served
    exact Devices.Sessions.RefreshEnded.refused hdead hcall hserve credentials rfl

end Statements

/-! ## The transactions -/

section Transactions

variable {db : Db} {userId now : Int} {passwordHash : String}

theorem revokeSessions_ended {of : SessionRow → Bool} {reason : String} {r : SessionRow}
    (hr : r ∈ db.sessions.rows) (hof : of r = true) :
    SessionEnded (db.revokeSessions of reason) r.sessionTokenHash := by
  by_cases hactive : r.sessionStatus = .active
  · have hp : (of r && r.sessionStatus == .active) = true :=
      Bool.and_eq_true_iff.mpr ⟨hof, beq_iff_eq.mpr hactive⟩
    exact ⟨_, mem_updateWhere.mpr ⟨r, hr, (if_pos hp).symm⟩, rfl, fun h => by cases h⟩
  · have hp : ¬(of r && r.sessionStatus == .active) = true := fun h =>
      hactive (eq_of_beq (Bool.and_eq_true_iff.mp h).2)
    exact ⟨r, mem_updateWhere.mpr ⟨r, hr, (if_neg hp).symm⟩, rfl, hactive⟩

/-- A revocation of refresh sessions, and what takes away the stored rotations behind it. -/
theorem revokeRefreshSessions_closed {of : RefreshSessionRow → Bool} {reason : String}
    {r : RefreshSessionRow} (hr : r ∈ db.refreshSessions.rows) (huser : r.userId = userId)
    (hof : of r = true) :
    Closed ((db.revokeRefreshSessions of reason).clearBrowserRefreshRotationRecovery userId)
      r.refreshTokenHash := by
  by_cases hactive : r.sessionStatus = .active
  · let revoked : RefreshSessionRow :=
      { r with sessionStatus := .revoked, revokeReason := reason }
    have hp : (of r && r.sessionStatus == .active) = true :=
      Bool.and_eq_true_iff.mpr ⟨hof, beq_iff_eq.mpr hactive⟩
    have hmem : revoked ∈ (db.revokeRefreshSessions of reason).refreshSessions.rows :=
      mem_updateWhere.mpr ⟨r, hr, (if_pos hp).symm⟩
    exact @clear_closed _ userId revoked hmem huser fun h => by cases h
  · exact closed_of_clear (revokeRefreshSessions_kept _ _ _) hr huser hactive

theorem BrowserToken.of_tables {db' : Db} {exceptToken exceptRefresh : Option String}
    {token : Token} (h : BrowserToken S db userId exceptToken exceptRefresh token)
    (hsessions : db'.sessions = db.sessions)
    (hrefresh : db'.refreshSessions = db.refreshSessions) :
    BrowserToken S db' userId exceptToken exceptRefresh token := by
  cases h with
  | session hr hhash huser hother => exact .session (hsessions ▸ hr) hhash huser hother
  | refresh hr hhash huser hother => exact .refresh (hrefresh ▸ hr) hhash huser hother

theorem endBrowserSessions_dead {reason : String} {token : Token}
    (h : BrowserToken S db userId none none token) :
    Dead S (db.endBrowserSessions userId reason) token := by
  cases h with
  | session hr hhash huser _ =>
    have hended := @revokeSessions_ended db (·.userId == userId) reason _ hr
      (beq_iff_eq.mpr huser)
    rw [hhash] at hended
    exact hended
  | refresh hr hhash huser _ =>
    have hclosed := @revokeRefreshSessions_closed (db.revokeSessions (·.userId == userId) reason)
      userId (·.userId == userId) reason _ hr huser (beq_iff_eq.mpr huser)
    rw [hhash] at hclosed
    exact hclosed

theorem others_of_ne {currentHash : Option String} {hash : String}
    (h : currentHash ≠ some hash) : (currentHash.all fun h => hash != h) = true := by
  cases currentHash with
  | none => rfl
  | some current => exact bne_iff_ne.mpr fun heq => h (heq ▸ rfl)

theorem changeOwnPassword_browser {exceptToken exceptRefresh currentFamily : Option String}
    {token : Token} (h : BrowserToken S db userId exceptToken exceptRefresh token) :
    Dead S (db.changeOwnPassword now userId passwordHash exceptToken exceptRefresh currentFamily)
      token := by
  cases h with
  | session hr hhash huser hother =>
    have hended := @revokeSessions_ended (db.setPassword userId passwordHash)
      (fun r => r.userId == userId && exceptToken.all fun h => r.sessionTokenHash != h)
      "self_password_change" _ hr
      (Bool.and_eq_true_iff.mpr ⟨beq_iff_eq.mpr huser, others_of_ne hother⟩)
    rw [hhash] at hended
    exact hended
  | refresh hr hhash huser hother =>
    have hclosed := @revokeRefreshSessions_closed
      ((db.setPassword userId passwordHash).revokeSessions
        (fun r => r.userId == userId && exceptToken.all fun h => r.sessionTokenHash != h)
        "self_password_change") userId
      (fun r => r.userId == userId && exceptRefresh.all fun h => r.refreshTokenHash != h)
      "self_password_change" _ hr huser
      (Bool.and_eq_true_iff.mpr ⟨beq_iff_eq.mpr huser, others_of_ne hother⟩)
    rw [hhash] at hclosed
    exact hclosed

theorem revokeOtherFamilies_over {currentFamily : Option String} {familyId : String}
    (h : OtherFamily db userId currentFamily familyId) :
    Devices.Sessions.Over (db.devices.revokeOtherFamilies now userId currentFamily).store
      familyId where
  mem := by
    have hcalm : Devices.Sessions.Calm db.devices
        (db.devices.revokeOtherFamilies now userId currentFamily) :=
      Devices.Sessions.revokeOtherFamilies_calm db.devices userId currentFamily
    exact hcalm.familyIds ▸ h.1
  status f' hf' hid := by
    obtain ⟨f, hf, rfl⟩ := mem_updateWhere.mp hf'
    split at hid <;> rename_i hp
    · rw [if_pos hp]
      exact fun h => by cases h
    · rw [if_neg hp]
      intro hactive
      obtain ⟨huser, hother⟩ := h.2 f hf hid
      refine hp (Bool.and_eq_true_iff.mpr ⟨Bool.and_eq_true_iff.mpr
        ⟨beq_iff_eq.mpr huser, beq_iff_eq.mpr hactive⟩, ?_⟩)
      cases currentFamily with
      | none => rfl
      | some current => exact bne_iff_ne.mpr (hother current rfl)

/-- Behind a step that ends the families, their tokens are dead. -/
theorem DeviceToken.dead {db' : Db} {of : String → Prop} {token : Token}
    (h : DeviceToken S db of token) (hunique : Devices.Sessions.TokensUnique db.devices.store)
    (hsessions : Grown Devices.Sessions.SessionKept Devices.Sessions.SessionRow.accessTokenHash
      db.devices.store.sessions db'.devices.store.sessions)
    (hcredentials : Grown Devices.Sessions.CredentialKept
      Devices.Sessions.CredentialRow.refreshTokenHash db.devices.store.credentials
      db'.devices.store.credentials)
    (hover : ∀ familyId, of familyId → Devices.Sessions.Over db'.devices.store familyId) :
    Dead S db' token := by
  cases h with
  | access ha hhash hfamily =>
    have hended := Devices.Sessions.Ended.of_row hunique.access ha hsessions
      Devices.Sessions.SessionKept.hash (fun _ _ hkept => hkept.familyId) (hover _ hfamily)
    rw [hhash] at hended
    exact hended
  | deviceRefresh hc hhash hfamily =>
    have hended := Devices.Sessions.Ended.of_row hunique.refresh hc hcredentials
      Devices.Sessions.CredentialKept.hash (fun _ _ hkept => hkept.familyId) (hover _ hfamily)
    rw [hhash] at hended
    exact hended

theorem changeOwnPassword_devices {exceptToken exceptRefresh currentFamily : Option String}
    (hunique : Devices.Sessions.TokensUnique db.devices.store) {token : Token}
    (h : DeviceToken S db (OtherFamily db userId currentFamily) token) :
    Dead S (db.changeOwnPassword now userId passwordHash exceptToken exceptRefresh currentFamily)
      token := by
  have hcalm : Devices.Sessions.Calm db.devices
      (db.devices.revokeOtherFamilies now userId currentFamily) :=
    Devices.Sessions.revokeOtherFamilies_calm db.devices userId currentFamily
  exact h.dead hunique (.kept hcalm.sessions) (.kept hcalm.credentials) fun _ hother =>
    revokeOtherFamilies_over hother

theorem signedOut_dead {m : Moment} {call : DeviceCall} {familyId reason : String}
    {answer : Devices.Sessions.Answer} {token : Token}
    (hunique : Devices.Sessions.TokensUnique db.devices.store)
    (hcall : call.val = .revoke userId familyId reason)
    (hanswer : (deviceOutcome S m db call).2 = .ok answer)
    (h : DeviceToken S db (· = familyId) token) :
    Dead S (execute S m db (.device call)).1 token := by
  have hserve : Devices.Sessions.serve S.devices db.devices ⟨call.val, m.now, m.faults⟩ =
      some ((deviceOutcome S m db call).1, .ok answer) := hanswer ▸ device_serve S m db call
  refine h.dead hunique (Devices.Sessions.serve_sessions hserve)
    (Devices.Sessions.serve_credentials hserve) ?_
  rintro _ rfl
  exact Devices.Sessions.revoke_over hcall hserve

theorem revokeRefreshSession_closed {reason : String} {r : RefreshSessionRow}
    (hr : r ∈ db.refreshSessions.rows) :
    Closed (db.revokeRefreshSession r.refreshTokenHash reason) r.refreshTokenHash := by
  unfold Db.revokeRefreshSession
  rw [find?_of_mem db.refreshSessions.hashes hr]
  exact revokeRefreshSessions_closed hr rfl (beq_self_eq_true _)

theorem Ends.dead {m : Moment} {st : Statement} {token : Token} (h : Ends S m db st token)
    (hunique : Devices.Sessions.TokensUnique db.devices.store) :
    Dead S (execute S m db st).1 token := by
  cases h with
  | @loggedOut r rawToken reason hr hhash =>
    have hended := @revokeSessions_ended db (·.sessionTokenHash == hashSessionToken S rawToken)
      reason r hr (beq_iff_eq.mpr hhash)
    rw [hhash] at hended
    exact hended
  | @refreshRevoked r refreshToken reason hr hhash =>
    have hclosed := @revokeRefreshSession_closed db reason r hr
    rw [hhash] at hclosed
    exact hclosed
  | reset h => exact endBrowserSessions_dead (h.of_tables rfl rfl)
  | disabled hstatus h =>
    unfold execute Db.setUserStatus
    dsimp only
    rw [if_pos hstatus]
    exact endBrowserSessions_dead (h.of_tables rfl rfl)
  | changedBrowser h => exact changeOwnPassword_browser h
  | changedDevice h => exact changeOwnPassword_devices hunique h
  | signedOut hcall hanswer h => exact signedOut_dead hunique hcall hanswer h

end Transactions

/-! ## Runs -/

section Runs

variable {db : Db} {s u v : State} {before after : List Step}

theorem step_devices {e : Turn Request Moment} {o : Unit} (hstep : serve S s e = some (u, o)) :
    DevicesTurned S s.db u.db := by
  rcases turn_cases hstep with ⟨c, rfl, rfl⟩ | ⟨i, m, st, k, rfl, _, rfl⟩
  · exact .of_eq rfl
  · exact perform_devices S m st s.db

theorem run_unique (hunique : Devices.Sessions.TokensUnique db.devices.store)
    (hrun : Run (serve S) { db, calls := [] } before s) :
    Devices.Sessions.TokensUnique s.db.devices.store := by
  refine Run.invariant (C := fun _ _ => True)
    (I := fun s => Devices.Sessions.TokensUnique s.db.devices.store) hunique ?_ hrun
    fun _ _ => trivial
  exact fun _ _ _ _ hpast _ hstep => (step_devices hstep).unique hpast

/-- What is dead stays dead. -/
theorem run_dead {token : Token} (hdead : Dead S u.db token) (hafter : Run (serve S) u after v) :
    ∀ y ∈ after, Dead S y.pre.db token := by
  refine Run.forall_entry (C := fun _ _ => True) (I := fun t => Dead S t.db token)
    (Q := fun y => Dead S y.pre.db token) hdead ?_ hafter fun _ _ => trivial
  exact fun _ _ _ _ hpast _ hstep => ⟨hpast.kept (step_kept hstep) (step_devices hstep), hpast⟩

theorem run_rotations (hrun : Run (serve S) { db, calls := [] } before s) :
    Rotations S before s := by
  refine Run.history (C := fun _ _ => True) (rotations_start db) ?_ hrun fun _ _ => trivial
  exact fun _ _ _ _ _ _ h _ hstep => h.step hstep

/-- What a transaction ended is accepted in no step behind it, whatever the calls do. -/
theorem ended_logins_stay_ended (S : Server) (db : Db)
    (hunique : Devices.Sessions.TokensUnique db.devices.store) {before after : List Step}
    {s u v : State} {i : Nat} {m : Moment} {st : Statement}
    (hbefore : Run (serve S) { db, calls := [] } before s) (hst : nextStatement s i = some st)
    (hfault : m.fault = none) (hserve : serve S s (.resume i m) = some (u, ()))
    (hafter : Run (serve S) u after v) {token : Token} (hends : Ends S m s.db st token) :
    ∀ y ∈ after, ¬Accepts S (begun (before ++ ⟨s, .resume i m, ()⟩ :: after)) y token := by
  have hleft := run_rotations (hbefore.join hserve hafter)
  have hdead : Dead S u.db token := by
    have hbehind := @behind_resume S ⟨s, .resume i m, ()⟩ i m _ rfl hfault hst
    rw [behind_eq hserve] at hbehind
    rw [hbehind]
    exact hends.dead (run_unique hunique hbefore)
  intro y hy
  refine (run_dead hdead hafter y hy).refused fun refreshToken pair htoken => ?_
  rw [htoken] at hdead
  have hclosed : Closed (behind S ⟨s, .resume i m, ()⟩).db (hashRefreshToken S refreshToken) := by
    rw [behind_eq hserve]
    exact hdead
  exact (hleft.closed before _ after rfl _ hclosed).2 y hy refreshToken pair rfl

end Runs

theorem serve_resume (S : Server) (m : Moment) {s : State} {i : Nat} {st : Statement}
    (h : nextStatement s i = some st) :
    ∃ u, serve S s (.resume i m) = some (u, ()) ∧ u.calls.length = s.calls.length := by
  unfold nextStatement at h
  split at h
  · rename_i st' k hget
    unfold serve Lib.serve
    dsimp only
    rw [hget]
    exact ⟨_, rfl, List.length_set⟩
  · cases h

/-! ### A run -/

/-- One user, with one session. -/
def logged : Db :=
  { signedIn with
    sessions :=
      { rows := [⟨hashSessionToken plainServer "session-000-0", 1, .active, 10000, ""⟩]
        hashes := List.nodup_singleton _ } }

def resetBegins : List (Turn Request Moment) :=
  [.begin (.resetUserPassword "alice" "new password" "salt"), makesNext 0]

/-- The only call resets the password. -/
def standsAtReset (s : State) : Bool :=
  s.calls.length == 1 &&
    match nextStatement s 0 with
    | some (.resetPassword userId _) => userId == 1
    | _ => false

theorem standsAtReset_cases {s : State} (h : standsAtReset s = true) :
    s.calls.length = 1 ∧ ∃ passwordHash,
      nextStatement s 0 = some (.resetPassword 1 passwordHash) := by
  unfold standsAtReset at h
  obtain ⟨hlength, hnext⟩ := Bool.and_eq_true_iff.mp h
  refine ⟨eq_of_beq hlength, ?_⟩
  split at hnext
  · rename_i userId passwordHash hst
    rw [eq_of_beq hnext] at hst
    exact ⟨passwordHash, hst⟩
  · cases hnext

/-- The user's session is presented behind the reset. -/
theorem reset_ends_a_login :
    ∃ before s u after v, Run (serve plainServer) { db := logged, calls := [] } before s ∧
      serve plainServer s (makesNext 0) = some (u, ()) ∧ Run (serve plainServer) u after v ∧
      after.length = 2 ∧ ∀ y ∈ after, ¬Accepts plainServer
        (begun (before ++ ⟨s, makesNext 0, ()⟩ :: after)) y (.session "session-000-0") := by
  have hlook : (exec (serve plainServer) { db := logged, calls := [] } resetBegins).map (fun r =>
      (standsAtReset r.2, r.2.db.sessions.rows)) = some (true, logged.sessions.rows) := by
    decide +kernel
  obtain ⟨⟨before, s⟩, hexec, hends⟩ := Option.map_eq_some_iff.mp hlook
  obtain ⟨hstands, hrows⟩ := Prod.mk.inj hends
  obtain ⟨hlength, passwordHash, hreset⟩ := standsAtReset_cases hstands
  obtain ⟨u, hserve, hcalls⟩ := serve_resume plainServer ⟨10000000000, none, fun _ => false⟩ hreset
  rw [hlength] at hcalls
  let presented : State :=
    { u with calls := u.calls ++ [start plainServer (.userFromRawSession "session-000-0")] }
  have hpresented : nextStatement presented 1 =
      some (.userFromTokenHash (hashSessionToken plainServer "session-000-0")) := by
    unfold nextStatement
    rw [List.getElem?_append_right (by omega), hcalls]
    rfl
  obtain ⟨v, hanswer, _⟩ :=
    serve_resume plainServer ⟨10000000000, none, fun _ => false⟩ hpresented
  have hafter : Run (serve plainServer) u [⟨u, .begin (.userFromRawSession "session-000-0"), ()⟩,
      ⟨presented, makesNext 1, ()⟩] v := .head rfl (.head hanswer .start)
  have hmem : (⟨hashSessionToken plainServer "session-000-0", 1, .active, 10000, ""⟩ :
      SessionRow) ∈ s.db.sessions.rows := by
    rw [hrows]
    exact List.mem_singleton.mpr rfl
  exact ⟨before, s, u, _, v, run_of_exec hexec, hserve, hafter, rfl,
    ended_logins_stay_ended plainServer logged ⟨List.nodup_nil, List.nodup_nil⟩
      (run_of_exec hexec) hreset rfl hserve hafter
      (.reset (.session hmem rfl rfl fun h => by cases h))⟩

end BrowserSessions
end Auth
end Yuance
