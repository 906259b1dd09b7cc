import Yuance.Devices.PollGate

/-!
# Yuance.Devices.PollAdvice

Whether it is enough to wait the delay a poll was told. The delay is a difference of moments cut to
whole seconds; the gate it leads to is not.

* `serve_advice`: the two ways a poll comes to an advice, and what it leaves in the row.
* `PollLoop`, `PollLoop.patient`: the desktop application never polls before its delay has passed.
* `desktop_is_never_slowed_down`: what comes of that.
* `polling_advice`: the advice is honoured except after a poll that came more than a second, and no
  whole number of seconds, before its time.
-/

namespace Yuance
namespace Devices

open Lib

variable {C : Type}

def slowedDown : Except Error (Reply C) → Bool
  | .error (.slowDown _) => true
  | _ => false

/-- The exchange comes with the verifier of the code. -/
def Request.Matches (issuer : Issuer C) (row : Authorization) : Request → Prop
  | .exchange codeVerifier _ => issuer.pkceMatches codeVerifier row.codeChallenge = true
  | .status => True

/-! ## The answers of a poll -/

section Answers

variable {issuer : Issuer C} {row row' : Authorization} {now : Int} {request : Request}
  {answer : Except Error (Reply C)} {r : Int}

theorem finishTransaction_advice {result : Authorization × Except Error (Reply C)}
    (hadvice : adviceOf result.2 = some r) : finishTransaction row result = result := by
  obtain ⟨row', answer⟩ := result
  have hcommit : shouldCommit answer = true := by
    cases answer with
    | ok reply => rfl
    | error e =>
      cases e
      all_goals first
        | rfl
        | cases hadvice
  unfold finishTransaction
  rw [if_pos hcommit]

theorem recoverExchange_advice {transactionId : String} :
    adviceOf (recoverExchange issuer transactionId row now) = none := by
  cases h : recoverExchange issuer transactionId row now with
  | ok reply =>
    unfold recoverExchange at h
    obtain ⟨_, _, h⟩ := bind_eq_ok.mp h
    obtain ⟨_, _, h⟩ := bind_eq_ok.mp h
    obtain ⟨_, _, h⟩ := bind_eq_ok.mp h
    obtain ⟨_, _, h⟩ := bind_eq_ok.mp h
    obtain ⟨_, _, h⟩ := bind_eq_ok.mp h
    obtain ⟨_, _, h⟩ := bind_eq_ok.mp h
    rw [← Except.ok.inj h]
    rfl
  | error e =>
    have hne : ∀ e', e'.retryAfterSeconds ≠ none →
        recoverExchange issuer transactionId row now ≠ .error e' := by
      intro e' hadvice
      have hother : ∀ e'' : Error, e''.retryAfterSeconds = none → e'' ≠ e' :=
        fun e'' hnone heq => hadvice (heq ▸ hnone)
      unfold recoverExchange
      refine bind_ne_error (rejectIf_ne_error (hother _ rfl)) fun _ _ => ?_
      refine bind_ne_error (okOr_ne_error (hother _ rfl)) fun _ _ => ?_
      refine bind_ne_error (rejectIf_ne_error (hother _ rfl)) fun _ _ => ?_
      refine bind_ne_error (okOr_ne_error (hother _ rfl)) fun _ _ => ?_
      refine bind_ne_error (rejectIf_ne_error (hother _ rfl)) fun _ _ => ?_
      refine bind_ne_error (okOr_ne_error (hother _ rfl)) fun _ _ => ?_
      intro h
      cases h
    by_contra hadvice
    exact hne e hadvice h

theorem issueCredentials_advice {transactionId : String} :
    adviceOf (issueCredentials issuer transactionId row now).2 = none := by
  unfold issueCredentials
  split
  · rfl
  · split
    · rename_i failure _
      cases failure
      all_goals rfl
    · rfl

/-- An exchange of a row that is not over comes to the gate. -/
theorem exchangeInTransaction_live {codeVerifier transactionId : String}
    (hmatches : issuer.pkceMatches codeVerifier row.codeChallenge = true) (hlive : Live row now) :
    exchangeInTransaction issuer codeVerifier transactionId row now
      = match enforcePollGate row now with
        | (row', .error e) => (row', .error e)
        | (row', .ok ()) =>
          if row.status = .pending then (row', .error (.authorizationPending row.pollIntervalSeconds))
          else issueCredentials issuer transactionId row' now := by
  obtain ⟨hstatus, hyear, hlt⟩ := hlive
  unfold exchangeInTransaction
  rw [hmatches, if_neg (by decide), parseTimestamp_eq, if_pos hyear]
  rcases hstatus with hstatus | hstatus
  · rw [hstatus, if_neg (by decide)]
    dsimp only
    rw [if_neg (Int.not_le.mpr hlt)]
    rfl
  · rw [hstatus, if_neg (by decide)]
    dsimp only
    rw [if_neg (Int.not_le.mpr hlt)]
    rfl

theorem pollInTransaction_live (hlive : Live row now) :
    pollInTransaction (C := C) row now
      = match enforcePollGate row now with
        | (row', .error e) => (row', .error e)
        | (row', .ok ()) => (row', .ok (.poll row.status row.pollIntervalSeconds)) := by
  obtain ⟨hstatus, hyear, hlt⟩ := hlive
  unfold pollInTransaction
  rw [parseTimestamp_eq, if_pos hyear]
  dsimp only
  rw [if_neg fun h => absurd h.1 (Int.not_le.mpr hlt)]
  exact if_pos hstatus

/-- Without a row that waits there is no advice. -/
theorem exchangeInTransaction_advice {codeVerifier transactionId : String}
    (hadvice : adviceOf (exchangeInTransaction issuer codeVerifier transactionId row now).2
      = some r) :
    issuer.pkceMatches codeVerifier row.codeChallenge = true ∧ Live row now := by
  unfold exchangeInTransaction at hadvice
  split at hadvice
  · cases hadvice
  · rename_i hmatches
    split at hadvice
    · rw [recoverExchange_advice] at hadvice
      cases hadvice
    · rw [parseTimestamp_eq] at hadvice
      by_cases hyear : FourDigitYear row.expiresAt.second
      · rw [if_pos hyear] at hadvice
        dsimp only at hadvice
        split at hadvice
        · cases hadvice
        · rename_i hlt
          refine ⟨by cases hpkce : issuer.pkceMatches codeVerifier row.codeChallenge with
            | true => rfl
            | false => exact absurd hpkce hmatches, ?_, hyear, Int.not_le.mp hlt⟩
          split at hadvice
          · cases hadvice
          · cases hadvice
          · cases hadvice
          · rename_i hpending
            exact .inl hpending
          · rename_i happroved
            exact .inr happroved
      · rw [if_neg hyear] at hadvice
        cases hadvice

theorem pollInTransaction_advice
    (hadvice : adviceOf (pollInTransaction (C := C) row now).2 = some r) : Live row now := by
  unfold pollInTransaction at hadvice
  rw [parseTimestamp_eq] at hadvice
  by_cases hyear : FourDigitYear row.expiresAt.second
  · rw [if_pos hyear] at hadvice
    dsimp only at hadvice
    split at hadvice
    · cases hadvice
    · rename_i hopen
      split at hadvice
      · rename_i hstatus
        exact ⟨hstatus, hyear, Int.not_le.mp fun hle => hopen ⟨hle, hstatus⟩⟩
      · rename_i hstatus
        exfalso
        cases hrow : row.status with
        | pending => exact hstatus (.inl hrow)
        | approved => exact hstatus (.inr hrow)
        | denied =>
          rw [hrow] at hadvice
          cases hadvice
        | expired =>
          rw [hrow] at hadvice
          cases hadvice
        | consumed =>
          rw [hrow] at hadvice
          cases hadvice
  · rw [if_neg hyear] at hadvice
    cases hadvice

/-- A poll before its time. -/
theorem serve_early (hmatches : request.Matches issuer row) (hlive : Live row now)
    (hearly : Early row now) :
    serve issuer request row now = (delayed row, .error (.slowDown (delayOf row now))) := by
  have hgate := enforcePollGate_early hearly
  cases request with
  | exchange codeVerifier transactionId =>
    unfold serve
    dsimp only
    rw [exchangeInTransaction_live hmatches hlive, hgate]
    rfl
  | status =>
    unfold serve
    dsimp only
    rw [pollInTransaction_live hlive, hgate]
    rfl

/-- The two ways a poll comes to an advice. -/
theorem serve_advice (hserve : serve issuer request row now = (row', answer))
    (hadvice : adviceOf answer = some r) :
    request.Matches issuer row ∧ Live row now
    ∧ ((Early row now ∧ row' = delayed row ∧ r = delayOf row now ∧ slowedDown answer = true)
      ∨ (¬ Early row now ∧ row' = passed row now ∧ r = row.pollIntervalSeconds
        ∧ slowedDown answer = false)) := by
  cases request with
  | exchange codeVerifier transactionId =>
    unfold serve at hserve
    dsimp only at hserve
    have hkept : adviceOf (exchangeInTransaction issuer codeVerifier transactionId row now).2
        = some r := (congrArg adviceOf (Prod.ext_iff.mp hserve).2).trans hadvice
    rw [finishTransaction_advice hkept] at hserve
    obtain ⟨hmatches, hlive⟩ := exchangeInTransaction_advice hkept
    refine ⟨hmatches, hlive, ?_⟩
    rw [exchangeInTransaction_live hmatches hlive] at hserve
    rcases enforcePollGate_cases hlive with ⟨hearly, hgate⟩ | ⟨hopen, hgate⟩ | ⟨hopen, hgate⟩
    · rw [hgate] at hserve
      obtain ⟨rfl, rfl⟩ := Prod.mk.inj hserve
      exact .inl ⟨hearly, rfl, (Option.some.inj hadvice).symm, rfl⟩
    · rw [hgate] at hserve
      dsimp only at hserve
      split at hserve
      · obtain ⟨rfl, rfl⟩ := Prod.mk.inj hserve
        exact .inr ⟨hopen, rfl, (Option.some.inj hadvice).symm, rfl⟩
      · have hnone := @issueCredentials_advice _ issuer (passed row now) now transactionId
        rw [hserve] at hnone
        exact absurd (hadvice.symm.trans hnone) (Option.some_ne_none r)
    · rw [hgate] at hserve
      obtain ⟨rfl, rfl⟩ := Prod.mk.inj hserve
      cases hadvice
  | status =>
    unfold serve at hserve
    dsimp only at hserve
    have hkept : adviceOf (pollInTransaction (C := C) row now).2 = some r :=
      (congrArg adviceOf (Prod.ext_iff.mp hserve).2).trans hadvice
    rw [finishTransaction_advice hkept] at hserve
    have hlive := pollInTransaction_advice hkept
    refine ⟨trivial, hlive, ?_⟩
    rw [pollInTransaction_live hlive] at hserve
    rcases enforcePollGate_cases hlive with ⟨hearly, hgate⟩ | ⟨hopen, hgate⟩ | ⟨hopen, hgate⟩
    · rw [hgate] at hserve
      obtain ⟨rfl, rfl⟩ := Prod.mk.inj hserve
      exact .inl ⟨hearly, rfl, (Option.some.inj hadvice).symm, rfl⟩
    · rw [hgate] at hserve
      obtain ⟨rfl, rfl⟩ := Prod.mk.inj hserve
      refine .inr ⟨hopen, rfl, ?_, rfl⟩
      rcases hlive.1 with hstatus | hstatus
      · rw [hstatus] at hadvice
        exact (Option.some.inj hadvice).symm
      · rw [hstatus] at hadvice
        exact (Option.some.inj hadvice).symm
    · rw [hgate] at hserve
      obtain ⟨rfl, rfl⟩ := Prod.mk.inj hserve
      cases hadvice

theorem early_of_slowedDown (hserve : serve issuer request row now = (row', answer))
    (hslow : slowedDown answer = true) : Live row now ∧ Early row now := by
  cases answer with
  | ok reply => cases hslow
  | error e =>
    cases e with
    | slowDown r =>
      obtain ⟨_, hlive, ⟨hearly, _⟩ | ⟨_, _, _, hnot⟩⟩ := serve_advice hserve (r := r) rfl
      · exact ⟨hlive, hearly⟩
      · cases hnot
    | _ => cases hslow

end Answers

/-! ## From one poll to the next -/

section Waiting

variable {issuer : Issuer C} {row row' : Authorization} {now earliest : Int} {r : Int}

/-- From `earliest` on the gate is open, as long as the row is not over. -/
def Quiet (row : Authorization) (earliest : Int) : Prop :=
  ∀ later, earliest ≤ later → later < row.expiresAt.moment → ¬ Early row later

theorem Between.columns (h : Between row row') :
    row'.nextPollAt = row.nextPollAt ∧ row'.expiresAt = row.expiresAt := by
  induction h with
  | refl => exact ⟨rfl, rfl⟩
  | decided user now _ ih =>
    unfold decideAuthorization
    split
    · exact ih
    · split
      · exact ih
      · split
        · exact ih
        · exact ih
  | reviewed now _ ih =>
    unfold expireByUserCode
    split
    · exact ih
    · exact ih

theorem Quiet.between (hquiet : Quiet row earliest) (h : Between row row') :
    Quiet row' earliest := by
  obtain ⟨hgate, hexpires⟩ := h.columns
  intro later hlater hlt hearly
  rw [hexpires] at hlt
  unfold Early at hearly
  rw [hgate] at hearly
  exact hquiet later hlater hlt hearly

/-- After a poll that the gate let pass, the interval is enough. -/
theorem quiet_passed : Quiet (passed row now) (now + seconds row.pollIntervalSeconds) := by
  intro later hlater _ hearly
  have hle := timestamp_moment_le (now + seconds row.pollIntervalSeconds)
  have hlt : later < (timestamp (now + seconds row.pollIntervalSeconds)).moment := hearly.2
  omega

/-- A poll before its time comes not more than a second or a whole number of seconds before it, or
the row is over when the delay has passed. -/
def Punctual (row : Authorization) (now : Int) : Prop :=
  row.nextPollAt.moment - now ≤ 1000000000
    ∨ (row.nextPollAt.moment - now) % 1000000000 = 0
    ∨ row.expiresAt.moment
      ≤ now + seconds ((row.nextPollAt.moment - now) / 1000000000 + row.pollIntervalSeconds)

theorem quiet_delayed_iff (hlive : Live row now) (hearly : Early row now) :
    Quiet (delayed row) (now + seconds (delayOf row now)) ↔ Punctual row now := by
  obtain ⟨_, hexpires, _⟩ := hlive
  obtain ⟨hyear, hlt⟩ := hearly
  have hgate : (delayed row).nextPollAt.moment
      = row.nextPollAt.moment + seconds row.pollIntervalSeconds := by
    unfold delayed Stamp.moment seconds
    dsimp only
    omega
  constructor
  · intro hquiet
    by_contra hpunctual
    unfold Punctual at hpunctual
    have hmax : delayOf row now
        = (row.nextPollAt.moment - now) / 1000000000 + row.pollIntervalSeconds := by
      unfold delayOf
      omega
    refine hquiet _ (Int.le_refl _) ?_ ⟨?_, ?_⟩
    · rw [hmax]
      exact Int.not_le.mp fun hle => hpunctual (.inr (.inr hle))
    · -- the gate moves to no later than the end of the row
      have hinterval := row.pollInterval_check
      show FourDigitYear (row.nextPollAt.second + row.pollIntervalSeconds)
      unfold FourDigitYear Stamp.moment seconds at *
      omega
    · rw [hmax, hgate]
      unfold seconds
      omega
  · intro hpunctual later hlater hlater_lt hearly
    have hlater_gate : later < (delayed row).nextPollAt.moment := hearly.2
    rw [hgate] at hlater_gate
    have hover : later < row.expiresAt.moment := hlater_lt
    unfold Punctual at hpunctual
    unfold delayOf seconds at *
    omega

theorem not_slowedDown_of_quiet (hquiet : Quiet row earliest) (hbetween : Between row row')
    (hlater : earliest ≤ now) (request : Request) :
    slowedDown (serve issuer request row' now).2 = false := by
  cases hslow : slowedDown (serve issuer request row' now).2 with
  | false => rfl
  | true =>
    have hserve : serve issuer request row' now
      = ((serve issuer request row' now).1, (serve issuer request row' now).2) := rfl
    obtain ⟨⟨_, _, hlt⟩, hearly⟩ := early_of_slowedDown hserve hslow
    exact absurd hearly (hquiet.between hbetween now hlater hlt)

/-- Who waits for an open gate is never slowed down. -/
theorem Patient.quiet {answers : List (Except Error (Reply C))}
    (h : Patient issuer row earliest answers) (hquiet : Quiet row earliest) :
    answers.countP slowedDown = 0 := by
  induction h with
  | stop => rfl
  | @last row row' row'' earliest now request answer hbetween hwaited hserve =>
    have hslow := @not_slowedDown_of_quiet _ issuer _ _ _ _ hquiet hbetween hwaited request
    rw [hserve] at hslow
    rw [List.countP_cons_of_neg (by rw [hslow]; decide)]
    rfl
  | @poll row row' row'' earliest now request answer r answers hbetween hwaited hserve hadvice
      hrest ih =>
    have hslow := @not_slowedDown_of_quiet _ issuer _ _ _ _ hquiet hbetween hwaited request
    rw [hserve] at hslow
    obtain ⟨_, _, ⟨_, _, _, hslow'⟩ | ⟨_, rfl, rfl, _⟩⟩ := serve_advice hserve hadvice
    · rw [hslow] at hslow'
      cases hslow'
    · rw [List.countP_cons_of_neg (by rw [hslow]; decide)]
      exact ih quiet_passed

end Waiting

/-! ## The desktop application -/

/-- The loop of `pollAuthorization`: the row, the delay in seconds, the moment of the clock and the
answers to come. The clock is read in milliseconds, a sleep takes at least its time, and a request is
served between the moment it is sent and the moment `back` of its answer. -/
inductive PollLoop (issuer : Issuer C) (expiresAt : Int) :
    Authorization → Int → Int → List (Except Error (Reply C)) → Prop where
  | expired {row : Authorization} {delaySeconds clock : Int} (h : expiresAt ≤ clock / 1000000) :
      PollLoop issuer expiresAt row delaySeconds clock []
  | expiredAsleep {row : Authorization} {delaySeconds clock woken : Int}
      (hslept : clock + min (delaySeconds * 1000) (max 0 (expiresAt - clock / 1000000)) * 1000000
        ≤ woken) (h : expiresAt ≤ woken / 1000000) :
      PollLoop issuer expiresAt row delaySeconds clock []
  | done {row row' row'' : Authorization} {delaySeconds clock woken now : Int}
      {codeVerifier transactionId : String} {answer : Except Error (Reply C)}
      (hslept : clock + min (delaySeconds * 1000) (max 0 (expiresAt - clock / 1000000)) * 1000000
        ≤ woken) (hlive : woken / 1000000 < expiresAt) (hsent : woken ≤ now)
      (hbetween : Between row row')
      (hserve : serve issuer (.exchange codeVerifier transactionId) row' now = (row'', answer)) :
      PollLoop issuer expiresAt row delaySeconds clock [answer]
  | again {row row' row'' : Authorization} {delaySeconds clock woken now back r : Int}
      {codeVerifier transactionId : String} {e : Error} {answers : List (Except Error (Reply C))}
      (hslept : clock + min (delaySeconds * 1000) (max 0 (expiresAt - clock / 1000000)) * 1000000
        ≤ woken) (hlive : woken / 1000000 < expiresAt) (hsent : woken ≤ now) (hback : now ≤ back)
      (hbetween : Between row row')
      (hserve : serve issuer (.exchange codeVerifier transactionId) row' now = (row'', .error e))
      (hadvice : e.retryAfterSeconds = some r)
      (hrest : PollLoop issuer expiresAt row'' (max delaySeconds r) back answers) :
      PollLoop issuer expiresAt row delaySeconds clock (.error e :: answers)

/-- Whoever wakes before the end has slept the whole delay. -/
theorem slept_delay {delaySeconds clock woken expiresAt : Int}
    (hslept : clock + min (delaySeconds * 1000) (max 0 (expiresAt - clock / 1000000)) * 1000000
      ≤ woken) (hlive : woken / 1000000 < expiresAt) : clock + seconds delaySeconds ≤ woken := by
  unfold seconds
  omega

/-- The loop waits the advised delay. -/
theorem PollLoop.patient {issuer : Issuer C} {row : Authorization}
    {delaySeconds clock expiresAt earliest : Int} {answers : List (Except Error (Reply C))}
    (h : PollLoop issuer expiresAt row delaySeconds clock answers)
    (hearliest : earliest ≤ clock + seconds delaySeconds) : Patient issuer row earliest answers := by
  induction h generalizing earliest with
  | expired h => exact .stop
  | expiredAsleep hslept h => exact .stop
  | done hslept hlive hsent hbetween hserve =>
    have hwoken := slept_delay hslept hlive
    exact .last hbetween (by omega) hserve
  | again hslept hlive hsent hback hbetween hserve hadvice hrest ih =>
    have hwoken := slept_delay hslept hlive
    refine .poll hbetween (by omega) hserve hadvice (ih ?_)
    unfold seconds
    omega

/-- The loop polls as seldom as it was told. -/
theorem PollLoop.seldom {issuer : Issuer C} {row : Authorization}
    {delaySeconds clock expiresAt : Int} {answers : List (Except Error (Reply C))}
    (h : PollLoop issuer expiresAt row delaySeconds clock answers) (hdelay : 0 ≤ delaySeconds) :
    answers.length * seconds delaySeconds ≤ max 0 (expiresAt * 1000000 - clock) := by
  induction h with
  | expired h => exact (le_of_eq (Int.zero_mul _)).trans (le_max_left ..)
  | expiredAsleep hslept h => exact (le_of_eq (Int.zero_mul _)).trans (le_max_left ..)
  | done hslept hlive hsent hbetween hserve =>
    have hwoken := slept_delay hslept hlive
    rw [List.length_singleton, Nat.cast_one, Int.one_mul]
    omega
  | @again row row' row'' delaySeconds clock woken now back r codeVerifier transactionId e answers
      hslept hlive hsent hback hbetween hserve hadvice hrest ih =>
    have hwoken := slept_delay hslept hlive
    -- the delay only grows
    have hgrown : answers.length * seconds delaySeconds ≤
        answers.length * seconds (max delaySeconds r) := by
      refine Int.mul_le_mul_of_nonneg_left ?_ (Int.natCast_nonneg _)
      unfold seconds
      omega
    have hrest := ih (by omega)
    rw [List.length_cons, Nat.cast_succ, Int.add_mul, Int.one_mul]
    omega

/-- No poll from `earliest` on is slowed down, if there was none in between. -/
def Honoured (issuer : Issuer C) (row : Authorization) (earliest : Int) : Prop :=
  ∀ row' later request, Between row row' → earliest ≤ later →
    slowedDown (serve issuer request row' later).2 = false

/-- The advice of an answer is honoured, and who follows it is slowed down once at most, unless the
poll came more than a second and no whole number of seconds before its time. -/
theorem polling_advice (issuer : Issuer C) (request : Request) (row row' : Authorization)
    (now r : Int) (answer : Except Error (Reply C))
    (hserve : serve issuer request row now = (row', answer)) (hadvice : adviceOf answer = some r) :
    (Honoured issuer row' (now + seconds r) ↔ (slowedDown answer = true → Punctual row now))
    ∧ ((∀ answers, Patient issuer row' (now + seconds r) answers →
          (answer :: answers).countP slowedDown ≤ 1)
        ↔ (slowedDown answer = true → Punctual row now)) := by
  obtain ⟨hmatches, hlive, ⟨hearly, rfl, rfl, hslow⟩ | ⟨hopen, rfl, rfl, hslow⟩⟩ :=
    serve_advice hserve hadvice
  · have hquiet := quiet_delayed_iff hlive hearly
    -- the poll that comes too early once more
    have hagain : ¬ Quiet (delayed row) (now + seconds (delayOf row now)) →
        ∃ later, now + seconds (delayOf row now) ≤ later
          ∧ slowedDown (serve issuer request (delayed row) later).2 = true := by
      intro hnot
      obtain ⟨later, hlater⟩ := not_forall.mp hnot
      obtain ⟨hwaited, hlater⟩ := Classical.not_imp.mp hlater
      obtain ⟨hlt, hagain⟩ := Classical.not_imp.mp hlater
      refine ⟨later, hwaited, ?_⟩
      have hmatches' : request.Matches issuer (delayed row) := by
        cases request with
        | exchange codeVerifier transactionId => exact hmatches
        | status => trivial
      rw [serve_early hmatches' ⟨hlive.1, hlive.2.1, hlt⟩ (not_not.mp hagain)]
      rfl
    constructor
    · constructor
      · intro hhonoured _
        refine hquiet.mp ?_
        by_contra hnot
        obtain ⟨later, hwaited, hslow'⟩ := hagain hnot
        rw [hhonoured (delayed row) later request .refl hwaited] at hslow'
        cases hslow'
      · intro hpunctual row'' later request' hbetween hlater
        exact not_slowedDown_of_quiet (hquiet.mpr (hpunctual hslow)) hbetween hlater request'
    · constructor
      · intro hcount _
        refine hquiet.mp ?_
        by_contra hnot
        obtain ⟨later, hwaited, hslow'⟩ := hagain hnot
        have hpatient : Patient issuer (delayed row) (now + seconds (delayOf row now))
            [(serve issuer request (delayed row) later).2] := .last .refl hwaited rfl
        have hone := hcount _ hpatient
        rw [List.countP_cons_of_pos hslow, List.countP_cons_of_pos hslow'] at hone
        omega
      · intro hpunctual answers hpatient
        rw [List.countP_cons_of_pos hslow, hpatient.quiet (hquiet.mpr (hpunctual hslow))]
  · constructor
    · refine ⟨fun _ h => (by rw [hslow] at h; cases h), fun _ row'' later request' hbetween hlater => ?_⟩
      exact not_slowedDown_of_quiet quiet_passed hbetween hlater request'
    · refine ⟨fun _ h => (by rw [hslow] at h; cases h), fun _ answers hpatient => ?_⟩
      rw [List.countP_cons_of_neg (by rw [hslow]; decide), hpatient.quiet quiet_passed]
      exact Nat.zero_le 1

/-- An issuer for whom every verifier is right. -/
def openIssuer : Issuer Unit where
  pkceMatches _ _ := true
  decryptExchangeResult _ _ := none
  issue _ _ _ _ := .error .userInactive
  idempotencyTtlSeconds := 300

/-- A row that waits for a decision, with the gate at the second `gate`. -/
def waitingRow (gate : Int) : Authorization where
  codeChallenge := ""
  status := .pending
  approvedUserId := none
  exchangeTransactionId := none
  exchangeResultCiphertext := ""
  exchangeResultExpiresAt := none
  expiresAt := ⟨1785577200⟩
  pollIntervalSeconds := 5
  nextPollAt := ⟨gate⟩
  pollInterval_check := ⟨by decide, by decide⟩

theorem waitingRow_slowDown {gate now : Int} (hgate : FourDigitYear gate) (hearly : now < seconds gate)
    (hlive : now < seconds 1785577200) :
    serve openIssuer (.exchange "" "") (waitingRow gate) now
      = (waitingRow (gate + 5), .error (.slowDown (max ((seconds gate - now) / 1000000000) 1 + 5))) :=
  serve_early rfl ⟨.inl rfl, (by decide : FourDigitYear 1785577200), hlive⟩ ⟨hgate, hearly⟩

/-- Half a second before its time a poll is told to wait six seconds, which are enough. -/
theorem polling_advice_half_second :
    Honoured openIssuer (waitingRow 1785576615) (seconds 1785576610 - 500000000 + seconds 6) :=
  (polling_advice openIssuer (.exchange "" "") (waitingRow 1785576610) (waitingRow 1785576615)
    (seconds 1785576610 - 500000000) 6 (.error (.slowDown 6))
    (waitingRow_slowDown (by decide) (by decide) (by decide)) rfl).1.mpr fun _ => .inl (by decide)

/-- Three and a half seconds before its time a poll is told to wait eight seconds, and is slowed down
again when it has waited them. -/
theorem polling_advice_too_short :
    serve openIssuer (.exchange "" "") (waitingRow 1785576610) (seconds 1785576610 - 3500000000)
        = (waitingRow 1785576615, .error (.slowDown 8))
      ∧ serve openIssuer (.exchange "" "") (waitingRow 1785576615)
          (seconds 1785576610 - 3500000000 + seconds 8)
        = (waitingRow 1785576620, .error (.slowDown 6)) :=
  ⟨waitingRow_slowDown (by decide) (by decide) (by decide),
    waitingRow_slowDown (by decide) (by decide) (by decide)⟩

end Devices
end Yuance
