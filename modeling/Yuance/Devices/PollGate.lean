import Yuance.Lib.Calendar
import Yuance.Lib.Except

/-!
# Yuance.Devices.PollGate

Polling a device authorization: `enforce_poll_gate`, `exchange_authorization` and
`poll_authorization` of `api/src/domains/device_sessions.rs`, and the loop of the desktop
application in `device-auth-client.mjs` that polls.

A moment is a number of nanoseconds since 1970. The columns with a time hold a text in whole
seconds, which SQL compares as a text. A row is served by one transaction after another
(`BEGIN IMMEDIATE`).

* `Request`, `serve`: a poll, by the exchange of the code or by a question for the status.
* `Between`: what happens to the row from one poll to the next.
* `Patient`: a client that never polls before the delay it was advised has passed.
-/

namespace Yuance
namespace Devices

open Lib

/-- `Duration::seconds`. -/
def seconds (n : Int) : Int := n * 1000000000

/-- A column with a time: the second whose text stands there. -/
structure Stamp where
  second : Int
  deriving DecidableEq

def Stamp.text (s : Stamp) : List Char := rfc3339 s.second

/-- The moment a column names. -/
def Stamp.moment (s : Stamp) : Int := seconds s.second

def timestamp (value : Int) : Stamp := ⟨value / 1000000000⟩

inductive Error where
  | invalidCodeVerifier
  | authorizationPending (retryAfterSeconds : Int)
  | slowDown (retryAfterSeconds : Int)
  | authorizationDenied
  | authorizationExpired
  | userInactive
  | exchangeTransactionMismatch
  | idempotencyExpired
  | invalidState (state : String)
  | storageFailure
  | cryptoFailure
  deriving DecidableEq

def Error.retryAfterSeconds : Error → Option Int
  | .authorizationPending retryAfterSeconds => some retryAfterSeconds
  | .slowDown retryAfterSeconds => some retryAfterSeconds
  | _ => none

def parseTimestamp (value : Stamp) : Except Error Int :=
  okOr ((parseRfc3339 value.text).map seconds) (.invalidState "invalid_timestamp")

inductive AuthorizationStatus where
  | pending | approved | denied | expired | consumed
  deriving DecidableEq

/-- A row of `device_authorizations`, as far as polling reads it. -/
structure Authorization where
  codeChallenge : String
  status : AuthorizationStatus
  approvedUserId : Option Int
  exchangeTransactionId : Option String
  exchangeResultCiphertext : String
  exchangeResultExpiresAt : Option Stamp
  expiresAt : Stamp
  pollIntervalSeconds : Int
  nextPollAt : Stamp
  pollInterval_check : 2 ≤ pollIntervalSeconds ∧ pollIntervalSeconds ≤ 15

/-! ## The gate -/

/-- `enforce_poll_gate`: the row afterwards, and the answer. -/
def enforcePollGate (row : Authorization) (now : Int) : Authorization × Except Error Unit :=
  match parseTimestamp row.nextPollAt with
  | .error e => (row, .error e)
  | .ok nextPollAt =>
    if nextPollAt > now then
      let retryAfterSeconds := max ((nextPollAt - now).tdiv 1000000000) 1
      let delayedUntil := nextPollAt + seconds row.pollIntervalSeconds
      ({ row with nextPollAt := timestamp delayedUntil },
        .error (.slowDown (retryAfterSeconds + row.pollIntervalSeconds)))
    else if (timestamp now).text < row.nextPollAt.text then
      -- the update found no row
      (row, .error (.slowDown row.pollIntervalSeconds))
    else
      ({ row with nextPollAt := timestamp (now + seconds row.pollIntervalSeconds) }, .ok ())

/-! ## A poll -/

/-- What can go wrong behind the gate. -/
inductive IssueFailure where
  | userInactive
  | invalidState (state : String)
  | storageFailure
  | cryptoFailure

def IssueFailure.error : IssueFailure → Error
  | .userInactive => .userInactive
  | .invalidState state => .invalidState state
  | .storageFailure => .storageFailure
  | .cryptoFailure => .cryptoFailure

/-- What the exchange calls: the hash of the verifier, the ciphers, and the rows of the new device
and its credentials. `issue` gives the credentials and the ciphertext in which they are kept. -/
structure Issuer (C : Type) where
  pkceMatches : String → String → Bool
  decryptExchangeResult : Authorization → String → Option C
  issue : Authorization → String → Int → Int → Except IssueFailure (String × C)
  idempotencyTtlSeconds : Int

inductive Request where
  | exchange (codeVerifier transactionId : String)
  | status

/-- What is answered: credentials, or the status with the interval. -/
inductive Reply (C : Type) where
  | credentials (c : C)
  | poll (status : AuthorizationStatus) (intervalSeconds : Int)

variable {C : Type}

/-- The credentials of an exchange that was made before. -/
def recoverExchange (issuer : Issuer C) (transactionId : String) (row : Authorization)
    (now : Int) : Except Error (Reply C) := do
  rejectIf (row.exchangeTransactionId ≠ some transactionId) .exchangeTransactionMismatch
  let resultExpiresAt ← okOr row.exchangeResultExpiresAt
    (.invalidState "consumed_without_result_expiry")
  rejectIf (row.exchangeResultCiphertext = "") .idempotencyExpired
  let resultExpiresAt ← parseTimestamp resultExpiresAt
  rejectIf (resultExpiresAt ≤ now) .idempotencyExpired
  let credentials ← okOr (issuer.decryptExchangeResult row transactionId) .cryptoFailure
  pure (.credentials credentials)

/-- The exchange of an approved row behind the gate. -/
def issueCredentials (issuer : Issuer C) (transactionId : String) (row : Authorization)
    (now : Int) : Authorization × Except Error (Reply C) :=
  match row.approvedUserId with
  | none => (row, .error (.invalidState "approved_without_user"))
  | some userId =>
    match issuer.issue row transactionId userId now with
    | .error failure => (row, .error failure.error)
    | .ok (ciphertext, credentials) =>
      ({ row with
          status := .consumed
          exchangeTransactionId := some transactionId
          exchangeResultCiphertext := ciphertext
          exchangeResultExpiresAt := some (timestamp (now + seconds issuer.idempotencyTtlSeconds)) },
        .ok (.credentials credentials))

/-- The update that marks a row whose time is over. -/
def expire (row : Authorization) : Authorization :=
  if row.status = .pending ∨ row.status = .approved then { row with status := .expired } else row

def exchangeInTransaction (issuer : Issuer C) (codeVerifier transactionId : String)
    (row : Authorization) (now : Int) : Authorization × Except Error (Reply C) :=
  if issuer.pkceMatches codeVerifier row.codeChallenge = false then
    (row, .error .invalidCodeVerifier)
  else if row.status = .consumed then (row, recoverExchange issuer transactionId row now)
  else
    match parseTimestamp row.expiresAt with
    | .error e => (row, .error e)
    | .ok expiresAt =>
      if expiresAt ≤ now then (expire row, .error .authorizationExpired)
      else
        match row.status with
        | .denied => (row, .error .authorizationDenied)
        | .expired => (row, .error .authorizationExpired)
        | .consumed => (row, .error (.invalidState "consumed"))
        | .pending =>
          match enforcePollGate row now with
          | (row', .error e) => (row', .error e)
          | (row', .ok ()) => (row', .error (.authorizationPending row.pollIntervalSeconds))
        | .approved =>
          match enforcePollGate row now with
          | (row', .error e) => (row', .error e)
          | (row', .ok ()) => issueCredentials issuer transactionId row' now

def pollInTransaction (row : Authorization) (now : Int) :
    Authorization × Except Error (Reply C) :=
  match parseTimestamp row.expiresAt with
  | .error e => (row, .error e)
  | .ok expiresAt =>
    if expiresAt ≤ now ∧ (row.status = .pending ∨ row.status = .approved) then
      (expire row, .error .authorizationExpired)
    else if row.status = .pending ∨ row.status = .approved then
      match enforcePollGate row now with
      | (row', .error e) => (row', .error e)
      | (row', .ok ()) => (row', .ok (.poll row.status row.pollIntervalSeconds))
    else (row, .ok (.poll row.status row.pollIntervalSeconds))

/-- `transaction_should_commit`. -/
def shouldCommit : Except Error (Reply C) → Bool
  | .error .storageFailure => false
  | .error .cryptoFailure => false
  | .error (.invalidState _) => false
  | _ => true

/-- The transaction of a poll: what it did is kept or taken back. -/
def finishTransaction (row : Authorization) (result : Authorization × Except Error (Reply C)) :
    Authorization × Except Error (Reply C) :=
  (if shouldCommit result.2 then result.1 else row, result.2)

/-- `exchange_authorization` and `poll_authorization`, from the transaction on. -/
def serve (issuer : Issuer C) : Request → Authorization → Int →
    Authorization × Except Error (Reply C)
  | .exchange codeVerifier transactionId, row, now =>
    finishTransaction row (exchangeInTransaction issuer codeVerifier transactionId row now)
  | .status, row, now => finishTransaction row (pollInTransaction row now)

/-- The delay a client is told to wait: an error names it, a status that may still change comes with
the interval. -/
def adviceOf : Except Error (Reply C) → Option Int
  | .error e => e.retryAfterSeconds
  | .ok (.poll .pending intervalSeconds) => some intervalSeconds
  | .ok (.poll .approved intervalSeconds) => some intervalSeconds
  | .ok _ => none

def SlowedDown (answer : Except Error (Reply C)) : Prop := ∃ r, answer = .error (.slowDown r)

/-! ## Between two polls -/

/-- `decide_authorization`: `user` approves, or somebody denies. -/
def decideAuthorization (user : Option Int) (now : Int) (row : Authorization) : Authorization :=
  if row.status = .pending ∧ (timestamp now).text < row.expiresAt.text then
    { row with
      status := if user.isSome then .approved else .denied
      approvedUserId := user }
  else
    match parseTimestamp row.expiresAt with
    | .error _ => row
    | .ok expiresAt =>
      if expiresAt ≤ now ∧ row.status = .pending then { row with status := .expired } else row

/-- `expire_authorization_by_user_code`, where the code is the row's. -/
def expireByUserCode (now : Int) (row : Authorization) : Authorization :=
  if row.status = .pending ∧ ¬ (timestamp now).text < row.expiresAt.text then
    { row with status := .expired }
  else row

/-- What happens to the row while nobody polls. -/
inductive Between (row : Authorization) : Authorization → Prop where
  | refl : Between row row
  | decided {row' : Authorization} (user : Option Int) (now : Int) (h : Between row row') :
      Between row (decideAuthorization user now row')
  | reviewed {row' : Authorization} (now : Int) (h : Between row row') :
      Between row (expireByUserCode now row')

/-- A client that polls from `earliest` on, and after every answer with an advice not before the
advised delay has passed. It gets these answers. -/
inductive Patient (issuer : Issuer C) :
    Authorization → Int → List (Except Error (Reply C)) → Prop where
  | stop {row : Authorization} {earliest : Int} : Patient issuer row earliest []
  | last {row row' row'' : Authorization} {earliest now : Int} {request : Request}
      {answer : Except Error (Reply C)} (hbetween : Between row row') (hwaited : earliest ≤ now)
      (hserve : serve issuer request row' now = (row'', answer)) : Patient issuer row earliest [answer]
  | poll {row row' row'' : Authorization} {earliest now : Int} {request : Request}
      {answer : Except Error (Reply C)} {r : Int} {answers : List (Except Error (Reply C))}
      (hbetween : Between row row') (hwaited : earliest ≤ now)
      (hserve : serve issuer request row' now = (row'', answer)) (hadvice : adviceOf answer = some r)
      (hrest : Patient issuer row'' (now + seconds r) answers) :
      Patient issuer row earliest (answer :: answers)

/-! ## What a poll does -/

section Gate

variable {row row' : Authorization} {now : Int}

theorem parseTimestamp_eq (s : Stamp) :
    parseTimestamp s = if FourDigitYear s.second then .ok s.moment
      else .error (.invalidState "invalid_timestamp") := by
  unfold parseTimestamp Stamp.text
  by_cases hyear : FourDigitYear s.second
  · rw [parseRfc3339_rfc3339 hyear, if_pos hyear]
    rfl
  · rw [parseRfc3339_signed hyear, if_neg hyear]
    rfl

/-- The gate is closed: the time of the next poll is still to come. -/
def Early (row : Authorization) (now : Int) : Prop :=
  FourDigitYear row.nextPollAt.second ∧ now < row.nextPollAt.moment

/-- The row waits for a decision or for the exchange, and its time is not over. -/
def Live (row : Authorization) (now : Int) : Prop :=
  (row.status = .pending ∨ row.status = .approved)
    ∧ FourDigitYear row.expiresAt.second ∧ now < row.expiresAt.moment

/-- The delay a poll before its time is told. -/
def delayOf (row : Authorization) (now : Int) : Int :=
  max ((row.nextPollAt.moment - now) / 1000000000) 1 + row.pollIntervalSeconds

/-- The row after a poll before its time. -/
def delayed (row : Authorization) : Authorization :=
  { row with nextPollAt := ⟨row.nextPollAt.second + row.pollIntervalSeconds⟩ }

/-- The row after a poll that the gate let pass. -/
def passed (row : Authorization) (now : Int) : Authorization :=
  { row with nextPollAt := timestamp (now + seconds row.pollIntervalSeconds) }

theorem timestamp_moment_le (now : Int) : (timestamp now).moment ≤ now := by
  unfold timestamp Stamp.moment seconds
  dsimp only
  omega

theorem enforcePollGate_early (h : Early row now) :
    enforcePollGate row now = (delayed row, .error (.slowDown (delayOf row now))) := by
  obtain ⟨hyear, hlt⟩ := h
  unfold enforcePollGate
  rw [parseTimestamp_eq, if_pos hyear]
  dsimp only
  have hstamp : timestamp (row.nextPollAt.moment + seconds row.pollIntervalSeconds)
      = ⟨row.nextPollAt.second + row.pollIntervalSeconds⟩ := by
    unfold timestamp Stamp.moment seconds
    congr 1
    omega
  rw [if_pos hlt, hstamp, Int.tdiv_eq_ediv_of_nonneg (by omega)]
  rfl

theorem enforcePollGate_open (hyear : FourDigitYear row.nextPollAt.second)
    (hopen : row.nextPollAt.moment ≤ now) (hnow : FourDigitYear (now / 1000000000)) :
    enforcePollGate row now = (passed row now, .ok ()) := by
  have htext : ¬ (timestamp now).text < row.nextPollAt.text := by
    unfold Stamp.text timestamp
    dsimp only
    rw [rfc3339_lt_iff hnow hyear]
    unfold Stamp.moment seconds at hopen
    omega
  unfold enforcePollGate
  rw [parseTimestamp_eq, if_pos hyear]
  dsimp only
  rw [if_neg (by omega), if_neg htext]
  rfl

theorem enforcePollGate_unread (hyear : ¬ FourDigitYear row.nextPollAt.second) :
    enforcePollGate row now = (row, .error (.invalidState "invalid_timestamp")) := by
  unfold enforcePollGate
  rw [parseTimestamp_eq, if_neg hyear]

/-- Before the row expires the texts compare as the moments do. -/
theorem fourDigit_of_live (h : Live row now) (hyear : FourDigitYear row.nextPollAt.second)
    (hopen : row.nextPollAt.moment ≤ now) : FourDigitYear (now / 1000000000) := by
  obtain ⟨_, hexpires, hlt⟩ := h
  unfold FourDigitYear Stamp.moment seconds at *
  omega

/-- What the gate does to a row that is not over. -/
theorem enforcePollGate_cases (h : Live row now) :
    (Early row now ∧ enforcePollGate row now = (delayed row, .error (.slowDown (delayOf row now))))
    ∨ (¬ Early row now ∧ enforcePollGate row now = (passed row now, .ok ()))
    ∨ (¬ Early row now
        ∧ enforcePollGate row now = (row, .error (.invalidState "invalid_timestamp"))) := by
  by_cases hyear : FourDigitYear row.nextPollAt.second
  · by_cases hlt : now < row.nextPollAt.moment
    · exact .inl ⟨⟨hyear, hlt⟩, enforcePollGate_early ⟨hyear, hlt⟩⟩
    · have hopen := Int.not_lt.mp hlt
      exact .inr (.inl ⟨fun h => hlt h.2,
        enforcePollGate_open hyear hopen (fourDigit_of_live h hyear hopen)⟩)
  · exact .inr (.inr ⟨fun h => hyear h.1, enforcePollGate_unread hyear⟩)

end Gate

end Devices
end Yuance
