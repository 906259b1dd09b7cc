import Yuance.Lib.Scan
import Yuance.Tokens.Limits
import Yuance.Web.Access

/-!
# Yuance.Web.Csrf

The headers of a request, the check of `api/src/platform/security/csrf.rs` and the ways in which the
handlers of `api/src/web/api/mod.rs` that call `ensure_api_csrf` find out who asks. The check is not
made where the first `Authorization` header holds a bearer token. The access of a device is a
function of its token; the times of the last use are left out.

* `HeaderMap`, `bearerToken`, `cookieValue`, `tokenFromHeaders`: what is read from the headers.
* `verify`: the check. `verify_eq_ok`: what the request carried then.
* `Handler`, `enter`: a handler up to its check.
* `principal_session`: a principal that is a session comes without a bearer token.
* `sessions_are_checked_iff`: who acts by a session passed the check, unless it was a logout with a
  bearer token beside its cookie.
-/

namespace Yuance
namespace Web
namespace Csrf

open Lib Platform
open Tokens (Secrets UserRow SystemTokenRow hashToken systemTokenHead plainSecrets)

/-! ## Headers -/

/-- The headers in their order, their names in lower case. -/
abbrev HeaderMap := List (String × Bytes)

/-- `headers.get(name)`: the first one. -/
def HeaderMap.get (headers : HeaderMap) (name : String) : Option Bytes := headers.lookup name

/-- `headers.get_all(name).iter().count()`. -/
def HeaderMap.count (headers : HeaderMap) (name : String) : Nat :=
  (headers.filter fun h => h.1 == name).length

/-- `to_str`: visible ASCII and tabs. -/
def toStr (value : Bytes) : Option String :=
  if value.all fun b => (32 ≤ b && b < 127) || b == 9 then
    some (String.ofList (value.map fun b => Char.ofNat b.toNat))
  else none

def HeaderMap.text (headers : HeaderMap) (name : String) : Option String :=
  (headers.get name).bind toStr

/-- `api_tokens::bearer_token`. -/
def bearerToken (headers : HeaderMap) : Option String := do
  let value ← headers.text "authorization"
  let token ← (stripHead "Bearer " (trim value)).or (stripHead "bearer " (trim value))
  if trim token = "" then none else some (trim token)

/-- `part.trim().split_once('=')`. -/
def cookiePair (part : List Char) : Option (String × String) :=
  match splitOnce '=' (trim (String.ofList part)).toList with
  | (name, some value) => some (String.ofList name, String.ofList value)
  | (_, none) => none

def cookiePairs (headers : HeaderMap) : List (String × String) :=
  ((headers.text "cookie").elim [] fun cookie => splitAll ';' cookie.toList).filterMap cookiePair

/-- `auth::cookie_value`. -/
def cookieValue (headers : HeaderMap) (cookieName : String) : Option String :=
  (cookiePairs headers).lookup cookieName

def sessionCookie (headers : HeaderMap) : Option String := cookieValue headers "yuance_session"

/-! ## The check -/

def isValidToken (token : String) : Bool := byteLen token == 64 && token.toList.all isHexIgnoreCase

/-- The cookie with a token that is well formed. -/
def tokenFromHeaders (headers : HeaderMap) : Option String :=
  ((cookiePairs headers).find? fun pair => pair.1 == "yuance_csrf" && isValidToken pair.2).map (·.2)

/-- The bytes that differ leave a bit behind. -/
def constantTimeEq (left right : Bytes) : Bool :=
  if left.length ≠ right.length then false
  else (left.zip right).foldl (fun diff (l, r) => diff ||| (l ^^^ r)) 0 == 0

def verify (headers : HeaderMap) (submittedToken : String) : Except AppError Unit := do
  let cookieToken ← okOr (tokenFromHeaders headers) (.forbidden "CSRF token 缺失或已失效")
  let headerToken := (headers.text "x-yuance-csrf-token").map trim
  let submittedToken :=
    if trim submittedToken = "" then headerToken.getD "" else trim submittedToken
  rejectIf (isValidToken submittedToken = false ∨
      constantTimeEq (utf8 cookieToken) (utf8 submittedToken) = false)
    (.forbidden "CSRF token 校验失败")

def ensureApiCsrf (headers : HeaderMap) : Except AppError Unit :=
  if (bearerToken headers).isSome then .ok () else verify headers ""

/-! ## Who asks -/

/-- A row of `sessions`. -/
structure SessionRow where
  sessionTokenHash : String
  userId : Int
  /-- `session_status = 'active'`. -/
  active : Bool
  expiresAt : String
  deriving DecidableEq, Repr

/-- What the server knows. -/
structure Server where
  secrets : Secrets
  now : String
  access : Access
  sessions : List SessionRow
  systemTokens : List SystemTokenRow
  /-- `authenticate_access_token`. -/
  deviceAccess : String → Option AuthUser

inductive Kind where
  | session
  | apiToken
  | systemToken
  | device
  deriving DecidableEq, Repr

/-- `valid_token_with_prefix`, for the access tokens of devices. -/
def isDeviceAccessToken (value : String) : Bool :=
  match stripHead "yuance_dat_" value with
  | none => false
  | some encoded =>
    byteLen encoded == 43 &&
      match Base64.decode Base64.urlSafeNoPad encoded with
      | none => false
      | some decoded => decoded.length == 32 && Base64.encode Base64.urlSafeNoPad decoded == encoded

def isSystemToken (rawToken : String) : Bool := hasHead systemTokenHead rawToken

section Principals

variable (server : Server) (headers : HeaderMap)

/-- `user_from_token_hash`. -/
def userFromRawSession (rawToken : String) : Option AuthUser :=
  (server.sessions.find? fun s => s.sessionTokenHash == hashToken server.secrets rawToken
    && s.active && decide (server.now < s.expiresAt)
    && (server.access.user s.userId).any (·.active)).bind fun s =>
      (server.access.user s.userId).map authUser

def userFromHeaders : Option AuthUser :=
  (sessionCookie headers).bind (userFromRawSession server)

def systemTokenUser (rawToken : String) : Option UserRow :=
  (server.systemTokens.find? fun t => t.tokenHash == hashToken server.secrets rawToken
    && (server.access.user t.createdByUserId).any (·.active)).bind
      fun t => server.access.user t.createdByUserId

def singleBearerToken : Except AppError (Option String) := do
  rejectIf (headers.count "authorization" > 1) (.forbidden "请求只能携带一个 Authorization 凭证")
  pure (bearerToken headers)

/-- Without a bearer token the browser session counts. -/
def requireSession : Except AppError Kind := do
  let _ ← okOr (userFromHeaders server headers) .unauthorized
  pure .session

def requireApiPrincipal : Except AppError Kind := do
  match ← singleBearerToken headers with
  | some rawToken =>
    rejectIf (isDeviceAccessToken rawToken = true)
      (.forbidden "设备 access token 未授权访问此业务 API")
    let _ ← okOr (server.access.authenticatedToken server.secrets server.now rawToken) .unauthorized
    pure .apiToken
  | none => requireSession server headers

def requireD2ApiPrincipal : Except AppError Kind := do
  match ← singleBearerToken headers with
  | none => requireApiPrincipal server headers
  | some rawToken =>
    if isDeviceAccessToken rawToken = false then requireApiPrincipal server headers
    else do
      let _ ← okOr (server.deviceAccess rawToken) .unauthorized
      pure .device

def requireSystemReleaseApiPrincipal : Except AppError Kind := do
  match ← singleBearerToken headers with
  | some rawToken =>
    rejectIf (isSystemToken rawToken = false)
      (.forbidden "系统版本管理接口仅支持系统访问 Token 或浏览器登录会话")
    let _ ← okOr (systemTokenUser server rawToken) .unauthorized
    pure .systemToken
  | none => requireSession server headers

/-- `logout` takes the session of the cookie. -/
def logoutSession : Except AppError Kind := do
  let rawToken ← okOr (sessionCookie headers) .unauthorized
  let _ ← okOr (userFromRawSession server rawToken) .unauthorized
  pure .session

end Principals

/-- How a handler finds out who asks. -/
inductive Handler where
  | api
  | d2
  | systemRelease
  | logout
  deriving DecidableEq, Repr

def Handler.principal : Handler → Server → HeaderMap → Except AppError Kind
  | api => requireApiPrincipal
  | d2 => requireD2ApiPrincipal
  | systemRelease => requireSystemReleaseApiPrincipal
  | logout => logoutSession

/-- A handler up to its check, which some make before they find out who asks. -/
def enter (handler : Handler) (csrfFirst : Bool) (server : Server) (headers : HeaderMap) :
    Except AppError Kind :=
  if csrfFirst then do
    ensureApiCsrf headers
    handler.principal server headers
  else do
    let kind ← handler.principal server headers
    ensureApiCsrf headers
    pure kind

/-! ## What the check makes sure of -/

/-- The request carries a token in its cookie, and the same one in a header. -/
def Carries (headers : HeaderMap) : Prop :=
  ∃ cookieToken value, tokenFromHeaders headers = some cookieToken ∧
    headers.text "x-yuance-csrf-token" = some value ∧ trim value = cookieToken

theorem fold_eq_zero {pairs : List (UInt8 × UInt8)} {diff : UInt8} :
    pairs.foldl (fun diff (l, r) => diff ||| (l ^^^ r)) diff = 0 ↔
      diff = 0 ∧ ∀ p ∈ pairs, p.1 = p.2 := by
  induction pairs generalizing diff with
  | nil => simp
  | cons p pairs ih =>
    rw [List.foldl_cons, ih, UInt8.or_eq_zero_iff, UInt8.xor_eq_zero_iff, List.forall_mem_cons,
      and_assoc]

/-- Comparing in constant time is comparing. -/
theorem constantTimeEq_iff {left right : Bytes} :
    constantTimeEq left right = true ↔ left = right := by
  unfold constantTimeEq
  split
  · rename_i hlen
    constructor
    · intro h
      cases h
    · intro h
      exact absurd (congrArg List.length h) hlen
  · rename_i hlen
    rw [beq_iff_eq, fold_eq_zero]
    constructor
    · rintro ⟨_, hall⟩
      apply List.ext_getElem (not_not.mp hlen)
      intro i hl hr
      have hmem : (left[i], right[i]) ∈ left.zip right := by
        rw [← List.getElem_zip (h := by rw [List.length_zip]; omega)]
        exact List.getElem_mem _
      exact hall _ hmem
    · rintro rfl
      refine ⟨rfl, fun p hp => ?_⟩
      obtain ⟨i, _, rfl⟩ := List.getElem_of_mem hp
      rw [List.getElem_zip]

theorem valid_of_tokenFromHeaders {headers : HeaderMap} {token : String}
    (h : tokenFromHeaders headers = some token) : isValidToken token = true := by
  obtain ⟨pair, hpair, rfl⟩ := Option.map_eq_some_iff.mp h
  have hkept := List.find?_some hpair
  exact (Bool.and_eq_true_iff.mp hkept).2

theorem verify_eq_ok {headers : HeaderMap} : verify headers "" = .ok () ↔ Carries headers := by
  have hempty : trim "" = "" := by decide
  unfold verify Carries
  simp only [bind_eq_ok, okOr_eq_ok, rejectIf_eq_ok, hempty, if_true, not_or, Bool.not_eq_false,
    constantTimeEq_iff]
  constructor
  · rintro ⟨cookieToken, hcookie, hvalid, heq⟩
    have hsame := utf8_injective heq
    cases htext : headers.text "x-yuance-csrf-token" with
    | none =>
      rw [htext] at hvalid
      exact absurd hvalid (by decide)
    | some value =>
      rw [htext] at hsame
      exact ⟨cookieToken, value, hcookie, rfl, hsame.symm⟩
  · rintro ⟨cookieToken, value, hcookie, htext, htrim⟩
    refine ⟨cookieToken, hcookie, ?_⟩
    rw [htext]
    change isValidToken (trim value) = true ∧ utf8 cookieToken = utf8 (trim value)
    rw [htrim]
    exact ⟨valid_of_tokenFromHeaders hcookie, rfl⟩

theorem ensureApiCsrf_eq_ok {headers : HeaderMap} :
    ensureApiCsrf headers = .ok () ↔ bearerToken headers ≠ none ∨ Carries headers := by
  unfold ensureApiCsrf
  cases hbearer : bearerToken headers with
  | none => exact verify_eq_ok.trans (by simp)
  | some token => simp

/-! ## Principals that are sessions -/

section Sessions

variable {server : Server} {headers : HeaderMap}

theorem singleBearerToken_eq_ok {found : Option String}
    (h : singleBearerToken headers = .ok found) :
    found = bearerToken headers := by
  obtain ⟨_, _, h⟩ := bind_eq_ok.mp h
  exact (Except.ok.inj h).symm

theorem requireApiPrincipal_session (h : requireApiPrincipal server headers = .ok .session) :
    bearerToken headers = none := by
  obtain ⟨found, hfound, h⟩ := bind_eq_ok.mp h
  rw [← singleBearerToken_eq_ok hfound]
  cases found with
  | none => rfl
  | some rawToken =>
    obtain ⟨_, _, h₁⟩ := bind_eq_ok.mp h
    obtain ⟨_, _, h₂⟩ := bind_eq_ok.mp h₁
    cases h₂

theorem requireD2ApiPrincipal_session (h : requireD2ApiPrincipal server headers = .ok .session) :
    bearerToken headers = none := by
  obtain ⟨found, hfound, h⟩ := bind_eq_ok.mp h
  cases found with
  | none => exact (singleBearerToken_eq_ok hfound).symm
  | some rawToken =>
    dsimp only at h
    split at h
    · exact requireApiPrincipal_session h
    · obtain ⟨_, _, h₁⟩ := bind_eq_ok.mp h
      cases h₁

theorem requireSystemReleaseApiPrincipal_session
    (h : requireSystemReleaseApiPrincipal server headers = .ok .session) :
    bearerToken headers = none := by
  obtain ⟨found, hfound, h⟩ := bind_eq_ok.mp h
  rw [← singleBearerToken_eq_ok hfound]
  cases found with
  | none => rfl
  | some rawToken =>
    obtain ⟨_, _, h₁⟩ := bind_eq_ok.mp h
    obtain ⟨_, _, h₂⟩ := bind_eq_ok.mp h₁
    cases h₂

/-- A principal that is a session comes without a bearer token. -/
theorem principal_session {handler : Handler} (hout : handler ≠ .logout)
    (h : handler.principal server headers = .ok .session) : bearerToken headers = none := by
  cases handler with
  | api => exact requireApiPrincipal_session h
  | d2 => exact requireD2ApiPrincipal_session h
  | systemRelease => exact requireSystemReleaseApiPrincipal_session h
  | logout => exact absurd rfl hout

/-- The request has the cookie of a live session. -/
def OfSession (server : Server) (headers : HeaderMap) : Prop :=
  (userFromHeaders server headers).isSome = true

theorem logoutSession_eq_ok : logoutSession server headers = .ok .session ↔
    OfSession server headers := by
  unfold logoutSession OfSession userFromHeaders
  simp only [bind_eq_ok, okOr_eq_ok, Option.isSome_iff_exists, Option.bind_eq_some_iff, pure_ok,
    and_true]
  constructor
  · rintro ⟨rawToken, hcookie, user, huser⟩
    exact ⟨user, rawToken, hcookie, huser⟩
  · rintro ⟨user, rawToken, hcookie, huser⟩
    exact ⟨rawToken, hcookie, user, huser⟩

theorem enter_session {handler : Handler} {csrfFirst : Bool} :
    enter handler csrfFirst server headers = .ok .session ↔
      handler.principal server headers = .ok .session ∧ ensureApiCsrf headers = .ok () := by
  unfold enter
  cases csrfFirst with
  | true =>
    simp only [if_true, bind_eq_ok]
    constructor
    · rintro ⟨_, hcsrf, hkind⟩
      exact ⟨hkind, hcsrf⟩
    · rintro ⟨hkind, hcsrf⟩
      exact ⟨(), hcsrf, hkind⟩
  | false =>
    simp only [Bool.false_eq_true, if_false, bind_eq_ok, pure_ok]
    constructor
    · rintro ⟨kind, hkind, _, hcsrf, heq⟩
      cases heq
      exact ⟨hkind, hcsrf⟩
    · rintro ⟨hkind, hcsrf⟩
      exact ⟨.session, hkind, (), hcsrf, rfl⟩

end Sessions

/-! ## Who acts by a session passed the check -/

/-- A handler that acts by a session has checked the request, unless it is the logout of a live
session with a bearer token in its first `Authorization` header and without the two tokens. -/
theorem sessions_are_checked_iff (handler : Handler) (csrfFirst : Bool) (server : Server)
    (headers : HeaderMap) :
    (enter handler csrfFirst server headers = .ok .session →
      verify headers "" = .ok () ∧ Carries headers) ↔
    (handler = .logout → OfSession server headers →
      bearerToken headers = none ∨ Carries headers) := by
  rw [enter_session, ensureApiCsrf_eq_ok, verify_eq_ok, and_self]
  constructor
  · rintro h rfl hlive
    by_cases hbearer : bearerToken headers = none
    · exact .inl hbearer
    · exact .inr (h ⟨logoutSession_eq_ok.mpr hlive, .inl hbearer⟩)
  · rintro h ⟨hkind, hcsrf⟩
    rcases hcsrf with hbearer | hcarries
    · by_cases hout : handler = .logout
      · have hlive : OfSession server headers := by
          subst hout
          exact logoutSession_eq_ok.mp hkind
        exact (h hout hlive).resolve_left hbearer
      · exact absurd (principal_session hout hkind) hbearer
    · exact hcarries

/-- The server with one user in one session. -/
def oneSession : Server where
  secrets := plainSecrets
  now := "2026-01-05 12:00:00"
  access := ⟨[⟨1, "alice", "Alice", true, false⟩], [], [], [], [], []⟩
  sessions := [⟨hashToken plainSecrets "cookie", 1, true, "2026-01-06 12:00:00"⟩]
  systemTokens := []
  deviceAccess := fun _ => none

/-- A header that another site can have sent beside the cookie. -/
def bearerBesideCookie : HeaderMap :=
  [("cookie", utf8 "yuance_session=cookie"), ("authorization", utf8 "Bearer x")]

theorem logout_with_any_bearer_token_is_unchecked :
    enter .logout false oneSession bearerBesideCookie = .ok .session ∧
      verify bearerBesideCookie "" ≠ .ok () ∧ ¬ Carries bearerBesideCookie := by
  have hverify : verify bearerBesideCookie "" ≠ .ok () := by decide +kernel
  exact ⟨by decide +kernel, hverify, fun h => hverify (verify_eq_ok.mpr h)⟩

end Csrf
end Web
end Yuance
