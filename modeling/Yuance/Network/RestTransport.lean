import Yuance.Network.ResponseContract

/-!
# Yuance.Network.RestTransport

`execute` of `desktop/src/network/rest-transport.mjs`, with `withAccessLease` of
`auth/credential-runtime.mjs` around each request. An attempt holds what the lease, the network and
the session do meanwhile.

* `execute`: the requests handed to `fetch`, and how the call settles.
* `execute_sent`: how many requests there are, and what comes before the second.
* `Reported`: what the rejection of a mutation says is known.
* `execute_reported_iff`: when it is known.
-/

namespace Yuance
namespace Network
namespace Rest

open Lib

structure Operation (ν : Type) where
  method : String
  path : String
  contentType : Option String
  editorContext : Option String
  body : Option String
  idempotent : Bool
  maxResponseBytes : Option Nat
  allowNoContent : Bool
  dataKind : DataKind
  /-- `parse(data, profile)`, unless it throws. -/
  parse : JsonValue → Option ν

structure Transport where
  /-- `profile.origin`. -/
  origin : String
  maxResponseBytes : Nat
  parseJson : Bytes → Option JsonValue

structure Request where
  url : String
  method : String
  headers : List (String × String)
  body : Option String
  deriving DecidableEq, Repr

inductive Exchange where
  /-- `fetch` rejects; `signal.aborted` by then. -/
  | failed (aborted : Bool)
  | answered (answer : Answer)

structure Attempt where
  /-- The token and the epoch of the lease, unless it is refused. -/
  lease : Except Thrown (String × Nat)
  exchange : Exchange
  /-- The epoch has changed when the operation has settled. -/
  stale : Bool

inductive Settled (ν : Type) where
  | expired (epoch : Nat)
  | value (value : ν)

def Settled.value? {ν : Type} : Settled ν → Option ν
  | .expired _ => none
  | .value result => some result

/-- The `code` of an error. -/
def Thrown.code : Thrown → Option JsonValue
  | .contract code _ => code
  | .plain => none

/-- `code === text`. -/
def codeIs (code : Option JsonValue) (text : String) : Bool :=
  match code with
  | some (.str s) => s = text
  | _ => false

/-- `list.includes(code)`. -/
def codeIn (code : Option JsonValue) (list : List String) : Bool :=
  match code with
  | some (.str s) => list.contains s
  | _ => false

def resultUncertain : Thrown := .contract (named "mutation_result_uncertain") none

section Execute

variable {ν : Type}

def requestOf (T : Transport) (operation : Operation ν) (accessToken : String) : Request where
  url := T.origin ++ operation.path
  method := operation.method
  headers :=
    [("Accept", "application/json"), ("Authorization", "Bearer " ++ accessToken),
      ("Cache-Control", "no-store")]
    ++ (match operation.contentType with
      | none => []
      | some contentType => if contentType = "" then [] else [("Content-Type", contentType)])
    ++ (match operation.editorContext with
      | none => []
      | some context =>
        if ["work-item-comment-edit", "work-item-primary-post"].contains context then
          [("X-Yuance-Editor-Context", context)]
        else [])
  body := operation.body

def optionsOf (T : Transport) (operation : Operation ν) : Options where
  expectedUrl := T.origin ++ operation.path
  maxResponseBytes := operation.maxResponseBytes.getD T.maxResponseBytes
  allowEmptyUrl := true
  allowNoContent := operation.allowNoContent
  dataKind := operation.dataKind

/-- The `catch` block around the response. -/
def caught (operation : Operation ν) (allowExpiryRetry : Bool) (epoch : Nat) (failure : Failure) :
    Except Thrown (Settled ν) :=
  if failure.aborted then
    .error (if operation.idempotent then .contract (named "request_timeout") none
      else resultUncertain)
  else
    match failure.error with
    | .contract code status =>
      if allowExpiryRetry && operation.idempotent && codeIs code "device_access_expired" &&
          status = some 401 then
        .ok (.expired epoch)
      else if !operation.idempotent && codeIn code uncertainCodes then .error resultUncertain
      else .error (.contract code status)
    | .plain => .error (.contract (named "response_read_failed") none)

/-- The signal where the data are parsed: nothing is awaited since the last read. -/
def Answer.abortedBehind (answer : Answer) (options : Options) : Bool :=
  answer.aborted && (answer.body.isNone ||
    (options.allowNoContent && options.dataKind = .nullableObject && answer.status = 204))

/-- The callback of the lease. -/
def exchanged (T : Transport) (operation : Operation ν) (allowExpiryRetry : Bool) (epoch : Nat) :
    Exchange → Except Thrown (Settled ν)
  | .failed aborted =>
    if operation.idempotent = false then .error resultUncertain
    else if aborted then .error (.contract (named "request_timeout") none)
    else .error (.contract (named "network_error") none)
  | .answered answer =>
    match parseJsonResponse T.parseJson (optionsOf T operation) answer with
    | .error failure => caught operation allowExpiryRetry epoch failure
    | .ok data =>
      match operation.parse data with
      | some value => .ok (.value value)
      | none =>
        caught operation allowExpiryRetry epoch
          (contractError "invalid_response" none (answer.abortedBehind (optionsOf T operation)))

/-- `executeOnce`, inside `withAccessLease`: the request, if one is handed to `fetch`. -/
def executeOnce (T : Transport) (operation : Operation ν) (allowExpiryRetry : Bool)
    (attempt : Attempt) : Option Request × Except Thrown (Settled ν) :=
  match attempt.lease with
  | .error error => (none, .error error)
  | .ok (accessToken, epoch) =>
    (some (requestOf T operation accessToken),
      match exchanged T operation allowExpiryRetry epoch attempt.exchange with
      | .error error => .error error
      | .ok settled => if attempt.stale then .error .plain else .ok settled)

/-- `execute`, behind `registry.resolve`; `refreshAccess` and the second attempt as they turn
out. -/
def execute (T : Transport) (operation : Operation ν) (first : Attempt)
    (refreshAccess : Nat → Except Thrown Bool) (second : Attempt) :
    List Request × Except Thrown (Option ν) :=
  let once := executeOnce T operation true first
  match once.2 with
  | .error error => (once.1.toList, .error error)
  | .ok (.value value) => (once.1.toList, .ok (some value))
  | .ok (.expired epoch) =>
    match refreshAccess epoch with
    | .error error => (once.1.toList, .error error)
    | .ok false => (once.1.toList, .error (.contract (named "stale_network_epoch") none))
    | .ok true =>
      let again := executeOnce T operation false second
      (once.1.toList ++ again.1.toList, again.2.map Settled.value?)

/-! ## What a rejection says -/

/-- A mutation that was sent is rejected with another code than that of an uncertain result only
where the server has answered with an error envelope of that code. -/
def Reported (T : Transport) (operation : Operation ν) (first : Attempt)
    (run : List Request × Except Thrown (Option ν)) : Prop :=
  run.1 ≠ [] → ∀ error, run.2 = .error error →
    error.code ≠ named "mutation_result_uncertain" →
      ∃ answer, first.exchange = .answered answer
        ∧ ErrorAnswer T.parseJson (optionsOf T operation) answer error.code

/-- The answer keeps the contract, and data that are parsed find the session unchanged. -/
structure Conforms (T : Transport) (operation : Operation ν) (first : Attempt) : Prop where
  sound : ∀ answer, first.exchange = .answered answer →
    ¬ Flaw T.parseJson (optionsOf T operation) answer
  settled : ∀ answer data value, first.exchange = .answered answer →
    DataAnswer T.parseJson (optionsOf T operation) answer data → operation.parse data = some value →
      first.stale = false

/-! ## The requests -/

variable {T : Transport} {operation : Operation ν} {first second : Attempt}
  {refreshAccess : Nat → Except Thrown Bool} {allow : Bool} {epoch epoch' : Nat}
  {failure : Failure} {exchange : Exchange} {answer : Answer}

theorem caught_expired (h : caught operation allow epoch failure = .ok (.expired epoch')) :
    allow = true ∧ operation.idempotent = true
      ∧ failure.error = .contract (named "device_access_expired") (some 401) := by
  unfold caught at h
  split at h
  · cases h
  · split at h
    · rename_i code status herror
      split at h
      · rename_i hexpired
        simp only [Bool.and_eq_true, decide_eq_true_eq] at hexpired
        obtain ⟨⟨⟨hallow, hidempotent⟩, hcode⟩, hstatus⟩ := hexpired
        refine ⟨hallow, hidempotent, ?_⟩
        unfold codeIs at hcode
        split at hcode
        · rw [herror, hstatus, of_decide_eq_true hcode]
          rfl
        · cases hcode
      · split at h
        · cases h
        · cases h
    · cases h

theorem caught_not_aborted {settled : Settled ν}
    (h : caught operation allow epoch failure = .ok settled) : failure.aborted = false := by
  by_contra haborted
  unfold caught at h
  rw [if_pos (eq_true_of_ne_false haborted)] at h
  cases h

theorem caught_not_value {value : ν}
    (h : caught operation allow epoch failure = .ok (.value value)) : False := by
  unfold caught at h
  split at h
  · cases h
  · split at h
    · split at h
      · cases h
      · split at h
        · cases h
        · cases h
    · cases h

/-- Where nothing was awaited, what is thrown is not aborted. -/
theorem caught_error {error : Thrown} (h : caught operation allow epoch failure = .error error)
    (haborted : failure.aborted = false) (hmutation : operation.idempotent = false) :
    (∃ code status, failure.error = .contract code status
      ∧ error = if codeIn code uncertainCodes then resultUncertain else .contract code status)
    ∨ (failure.error = .plain ∧ error = .contract (named "response_read_failed") none) := by
  unfold caught at h
  rw [haborted, if_neg Bool.false_ne_true, hmutation] at h
  cases herror : failure.error with
  | plain =>
    rw [herror] at h
    cases h
    exact .inr ⟨rfl, rfl⟩
  | contract code status =>
    rw [herror] at h
    simp only [Bool.and_false, Bool.false_and, Bool.false_eq_true, if_false, Bool.not_false,
      Bool.true_and] at h
    refine .inl ⟨code, status, rfl, ?_⟩
    by_cases hin : codeIn code uncertainCodes = true
    · rw [if_pos hin] at h ⊢
      cases h
      rfl
    · rw [if_neg hin] at h ⊢
      cases h
      rfl

theorem not_flawCode_expired {code : String} (hcode : code ∈ flawCodes) :
    named code ≠ named "device_access_expired" := by
  intro heq
  cases heq
  exact absurd hcode (by decide)

theorem not_uncertainCode_expired {code : String} (hcode : code ∈ uncertainCodes) :
    named code ≠ named "device_access_expired" := by
  intro heq
  cases heq
  exact absurd hcode (by decide)

/-- A lease is found expired by an error envelope of that code. -/
theorem exchanged_expired (h : exchanged T operation allow epoch exchange = .ok (.expired epoch')) :
    allow = true ∧ operation.idempotent = true ∧ ∃ answer, exchange = .answered answer
      ∧ answer.status = 401
      ∧ ErrorAnswer T.parseJson (optionsOf T operation) answer (named "device_access_expired") := by
  cases exchange with
  | failed aborted =>
    exfalso
    unfold exchanged at h
    dsimp only at h
    by_cases hmutation : operation.idempotent = false
    · rw [if_pos hmutation] at h
      cases h
    · rw [if_neg hmutation] at h
      by_cases haborted : aborted = true
      · rw [if_pos haborted] at h
        cases h
      · rw [if_neg haborted] at h
        cases h
  | answered answer =>
    unfold exchanged at h
    dsimp only at h
    have hverdict := @parseJsonResponse_verdict T.parseJson (optionsOf T operation) answer
    generalize parseJsonResponse T.parseJson (optionsOf T operation) answer = result at h hverdict
    cases hverdict with
    | @data data hdata =>
      dsimp only at h
      cases hparse : operation.parse data with
      | some value =>
        rw [hparse] at h
        cases h
      | none =>
        rw [hparse] at h
        obtain ⟨_, _, herror⟩ := caught_expired h
        have hcode := congrArg Thrown.code herror
        exact absurd hcode (not_uncertainCode_expired (by decide))
    | @error code aborted herror =>
      obtain ⟨hallow, hidempotent, hthrown⟩ := caught_expired h
      obtain ⟨rfl, hstatus⟩ := Thrown.contract.inj hthrown
      exact ⟨hallow, hidempotent, answer, rfl, Option.some.inj hstatus, herror⟩
    | @flaw failure _ cause =>
      obtain ⟨_, _, hthrown⟩ := caught_expired h
      rcases cause.2 with hplain | ⟨code, hcode, status, hcontract⟩
      · rw [hplain] at hthrown
        cases hthrown
      · rw [hcontract] at hthrown
        exact absurd (congrArg Thrown.code hthrown) (not_flawCode_expired hcode)
    | @broken failure _ _ cause =>
      have haborted := caught_not_aborted h
      obtain ⟨_, _, hthrown⟩ := caught_expired h
      rcases cause with habort | ⟨code, hcode, status, hcontract⟩
      · rw [haborted] at habort
        cases habort
      · rw [hcontract] at hthrown
        exact absurd (congrArg Thrown.code hthrown) (not_uncertainCode_expired hcode)

theorem executeOnce_sent (T : Transport) (operation : Operation ν) (allow : Bool)
    (attempt : Attempt) : (executeOnce T operation allow attempt).1.toList.length ≤ 1 := by
  cases (executeOnce T operation allow attempt).1 with
  | none => exact Nat.zero_le 1
  | some request => exact Nat.le_refl 1

/-- An attempt that ends in an expired lease. -/
theorem executeOnce_expired (h : (executeOnce T operation allow first).2 = .ok (.expired epoch)) :
    allow = true ∧ operation.idempotent = true ∧ ∃ answer, first.exchange = .answered answer
      ∧ answer.status = 401
      ∧ ErrorAnswer T.parseJson (optionsOf T operation) answer (named "device_access_expired") := by
  unfold executeOnce at h
  cases hlease : first.lease with
  | error error =>
    rw [hlease] at h
    cases h
  | ok lease =>
    rw [hlease] at h
    dsimp only at h
    cases hexchanged : exchanged T operation allow lease.2 first.exchange with
    | error error =>
      rw [hexchanged] at h
      cases h
    | ok settled =>
      rw [hexchanged] at h
      dsimp only at h
      by_cases hstale : first.stale = true
      · rw [if_pos hstale] at h
        cases h
      · rw [if_neg hstale] at h
        cases h
        exact exchanged_expired hexchanged

/-- A mutation is sent once, anything else at most twice, and the second time only after the server
has found the access of the device expired. -/
theorem execute_sent (T : Transport) (operation : Operation ν) (first : Attempt)
    (refreshAccess : Nat → Except Thrown Bool) (second : Attempt) :
    (execute T operation first refreshAccess second).1.length ≤ 2
      ∧ (1 < (execute T operation first refreshAccess second).1.length →
        operation.idempotent = true ∧ ∃ answer, first.exchange = .answered answer
          ∧ answer.status = 401 ∧ ErrorAnswer T.parseJson (optionsOf T operation) answer
            (named "device_access_expired")) := by
  have honce := executeOnce_sent T operation true first
  have hagain := executeOnce_sent T operation false second
  unfold execute
  dsimp only
  cases hresult : (executeOnce T operation true first).2 with
  | error error => exact ⟨by dsimp only; omega, fun h => absurd h (by dsimp only; omega)⟩
  | ok settled =>
    cases settled with
    | value value => exact ⟨by dsimp only; omega, fun h => absurd h (by dsimp only; omega)⟩
    | expired epoch =>
      have hexpired := (executeOnce_expired hresult).2
      dsimp only
      cases refreshAccess epoch with
      | error error => exact ⟨by dsimp only; omega, fun _ => hexpired⟩
      | ok refreshed =>
        cases refreshed with
        | false => exact ⟨by dsimp only; omega, fun _ => hexpired⟩
        | true =>
          refine ⟨?_, fun _ => hexpired⟩
          dsimp only
          rw [List.length_append]
          omega

/-! ## Mutations -/

theorem codeIn_named {code : String} (list : List String) :
    codeIn (named code) list = list.contains code := rfl

/-- What is caught of a mutation is uncertain, or what was thrown. -/
theorem caught_mutation (hmutation : operation.idempotent = false) :
    (∃ error, caught operation allow epoch failure = .error error
      ∧ (error.code = named "mutation_result_uncertain"
        ∨ (failure.aborted = false ∧ (failure.error = .plain ∨ error = failure.error)))) := by
  cases hcaught : caught operation allow epoch failure with
  | ok settled =>
    cases settled with
    | expired epoch' =>
      have hidempotent := (caught_expired hcaught).2.1
      rw [hmutation] at hidempotent
      cases hidempotent
    | value value => exact absurd hcaught caught_not_value
  | error error =>
    refine ⟨error, rfl, ?_⟩
    cases haborted : failure.aborted with
    | true =>
      unfold caught at hcaught
      rw [haborted, hmutation] at hcaught
      cases hcaught
      exact .inl rfl
    | false =>
      rcases caught_error hcaught haborted hmutation with ⟨code, status, herror, heq⟩ | ⟨hplain, _⟩
      · by_cases hin : codeIn code uncertainCodes = true
        · rw [if_pos hin] at heq
          rw [heq]
          exact .inl rfl
        · rw [if_neg hin] at heq
          exact .inr ⟨rfl, .inr (heq.trans herror.symm)⟩
      · exact .inr ⟨rfl, .inl hplain⟩

/-- How a mutation settles, next to what the answer is. -/
theorem exchanged_cases (hmutation : operation.idempotent = false) :
    (∃ error, exchanged T operation allow epoch exchange = .error error
      ∧ (error.code = named "mutation_result_uncertain" ∨ ∃ answer, exchange = .answered answer
        ∧ (ErrorAnswer T.parseJson (optionsOf T operation) answer error.code
          ∨ Flaw T.parseJson (optionsOf T operation) answer)))
    ∨ ∃ value answer data, exchanged T operation allow epoch exchange = .ok (.value value)
      ∧ exchange = .answered answer
      ∧ DataAnswer T.parseJson (optionsOf T operation) answer data
      ∧ operation.parse data = some value := by
  cases exchange with
  | failed aborted =>
    refine .inl ⟨resultUncertain, ?_, .inl rfl⟩
    unfold exchanged
    exact if_pos hmutation
  | answered answer =>
    unfold exchanged
    dsimp only
    have hverdict := @parseJsonResponse_verdict T.parseJson (optionsOf T operation) answer
    generalize parseJsonResponse T.parseJson (optionsOf T operation) answer = result at hverdict ⊢
    cases hverdict with
    | @data data hdata =>
      dsimp only
      cases hparse : operation.parse data with
      | some value => exact .inr ⟨value, answer, data, rfl, rfl, hdata, hparse⟩
      | none =>
        refine .inl ?_
        obtain ⟨error, hcaught, hcode⟩ := @caught_mutation ν operation allow epoch
          (contractError "invalid_response" none (answer.abortedBehind (optionsOf T operation)))
          hmutation
        refine ⟨error, hcaught, ?_⟩
        rcases hcode with hcode | ⟨haborted, hplain | herror⟩
        · exact .inl hcode
        · cases hplain
        · -- the code is one of the list, so it is not handed on
          rcases caught_error hcaught haborted hmutation with ⟨code, status, hthrown, heq⟩ |
            ⟨hplain, _⟩
          · cases hthrown
            rw [codeIn_named, if_pos (by decide)] at heq
            rw [heq]
            exact .inl rfl
          · cases hplain
    | @error code aborted herror =>
      obtain ⟨error, hcaught, hcode⟩ := @caught_mutation ν operation allow epoch
        { error := .contract code (some answer.status), aborted := aborted } hmutation
      refine .inl ⟨error, hcaught, ?_⟩
      rcases hcode with hcode | ⟨_, hplain | hsame⟩
      · exact .inl hcode
      · cases hplain
      · refine .inr ⟨answer, rfl, .inl ?_⟩
        rw [hsame]
        exact herror
    | @flaw failure hflaw cause =>
      obtain ⟨error, hcaught, _⟩ := @caught_mutation ν operation allow epoch failure hmutation
      exact .inl ⟨error, hcaught, .inr ⟨answer, rfl, .inr hflaw⟩⟩
    | @broken failure _ _ cause =>
      obtain ⟨error, hcaught, hcode⟩ := @caught_mutation ν operation allow epoch failure hmutation
      refine .inl ⟨error, hcaught, .inl ?_⟩
      rcases hcode with hcode | ⟨haborted, _⟩
      · exact hcode
      · rcases cause with habort | ⟨code, hcode, status, hcontract⟩
        · rw [haborted] at habort
          cases habort
        · rcases caught_error hcaught haborted hmutation with ⟨code', status', hthrown, heq⟩ |
            ⟨hplain, _⟩
          · rw [hcontract] at hthrown
            obtain ⟨rfl, _⟩ := Thrown.contract.inj hthrown
            rw [codeIn_named, if_pos (List.contains_iff_mem.mpr hcode)] at heq
            rw [heq]
            rfl
          · rw [hcontract] at hplain
            cases hplain

/-- A flaw is reported under a code of its own. -/
theorem exchanged_of_flaw (hmutation : operation.idempotent = false)
    (hflaw : Flaw T.parseJson (optionsOf T operation) answer) :
    ∃ error, exchanged T operation allow epoch (.answered answer) = .error error
      ∧ error.code ≠ named "mutation_result_uncertain" := by
  unfold exchanged
  dsimp only
  have hverdict := @parseJsonResponse_verdict T.parseJson (optionsOf T operation) answer
  generalize parseJsonResponse T.parseJson (optionsOf T operation) answer = result at hverdict ⊢
  cases hverdict with
  | data hdata => exact absurd hflaw hdata.not_flaw
  | error herror => exact absurd herror hflaw.not_errorAnswer
  | broken sound _ _ => exact absurd hflaw sound
  | @flaw failure _ cause =>
    obtain ⟨error, hcaught, _⟩ := @caught_mutation ν operation allow epoch failure hmutation
    refine ⟨error, hcaught, ?_⟩
    rcases caught_error hcaught cause.1 hmutation with ⟨code, status, hthrown, heq⟩ | ⟨_, heq⟩
    · rcases cause.2 with hplain | ⟨code', hcode', status', hcontract⟩
      · rw [hplain] at hthrown
        cases hthrown
      · rw [hcontract] at hthrown
        obtain ⟨rfl, _⟩ := Thrown.contract.inj hthrown
        have hcertain : ∀ code ∈ flawCodes, code ∉ uncertainCodes
            ∧ code ≠ "mutation_result_uncertain" := by decide
        obtain ⟨hnot, hne⟩ := hcertain code' hcode'
        rw [codeIn_named, if_neg fun hin => hnot (List.contains_iff_mem.mp hin)] at heq
        rw [heq]
        intro hcode
        cases hcode
        exact hne rfl
    · rw [heq]
      intro hcode
      exact absurd (JsonValue.str.inj (Option.some.inj hcode)) (by decide)

theorem exchanged_of_data {data : JsonValue} {value : ν}
    (hdata : DataAnswer T.parseJson (optionsOf T operation) answer data)
    (hparse : operation.parse data = some value) :
    exchanged T operation allow epoch (.answered answer) = .ok (.value value) := by
  unfold exchanged
  dsimp only
  rw [parseJsonResponse_of_data hdata]
  dsimp only
  rw [hparse]

/-- A mutation is not sent again, so it settles as its only attempt does. -/
theorem execute_mutation (hmutation : operation.idempotent = false) :
    execute T operation first refreshAccess second
      = ((executeOnce T operation true first).1.toList,
        (executeOnce T operation true first).2.map Settled.value?) := by
  unfold execute
  dsimp only
  cases hresult : (executeOnce T operation true first).2 with
  | error error => rfl
  | ok settled =>
    cases settled with
    | value value => rfl
    | expired epoch =>
      have hidempotent := (executeOnce_expired hresult).2.1
      rw [hmutation] at hidempotent
      cases hidempotent

theorem reported_iff (hmutation : operation.idempotent = false) :
    Reported T operation first (execute T operation first refreshAccess second)
      ↔ ((∃ lease, first.lease = .ok lease) → Conforms T operation first) := by
  rw [execute_mutation hmutation]
  unfold Reported executeOnce
  dsimp only
  cases hlease : first.lease with
  | error error =>
    refine iff_of_true (fun hsent => absurd rfl hsent) ?_
    rintro ⟨lease, hnot⟩
    cases hnot
  | ok lease =>
    dsimp only
    constructor
    · intro hreported _
      have hreported := hreported (List.cons_ne_nil _ [])
      refine ⟨?_, ?_⟩
      · intro answer hanswer hflaw
        obtain ⟨error, herror, hcode⟩ := @exchanged_of_flaw ν T operation true lease.2 answer
          hmutation hflaw
        rw [hanswer, herror] at hreported
        obtain ⟨answer', heq, hanswered⟩ := hreported error rfl hcode
        cases heq
        exact hflaw.not_errorAnswer hanswered
      · intro answer data value hanswer hdata hparse
        rw [hanswer, exchanged_of_data hdata hparse] at hreported
        dsimp only at hreported
        by_contra hstale
        rw [if_pos (eq_true_of_ne_false hstale)] at hreported
        obtain ⟨answer', heq, hanswered⟩ := hreported .plain rfl (fun h => nomatch h)
        cases heq
        exact hdata.not_errorAnswer hanswered
    · intro hconforms _ error herror hcode
      have hconforms := hconforms ⟨lease, rfl⟩
      rcases @exchanged_cases ν T operation true lease.2 first.exchange hmutation with
        ⟨error', hexchanged, hcases⟩ | ⟨value, answer, data, hexchanged, hanswer, hdata, hparse⟩
      · rw [hexchanged] at herror
        cases herror
        rcases hcases with huncertain | ⟨answer, hanswer, hanswered | hflaw⟩
        · exact absurd huncertain hcode
        · exact ⟨answer, hanswer, hanswered⟩
        · exact absurd hflaw (hconforms.sound answer hanswer)
      · have hstale := hconforms.settled answer data value hanswer hdata hparse
        rw [hexchanged] at herror
        dsimp only at herror
        rw [hstale, if_neg Bool.false_ne_true] at herror
        cases herror

/-- How often a request is sent, and when the rejection of a mutation says what is known. -/
theorem execute_reported_iff (T : Transport) (operation : Operation ν) (first : Attempt)
    (refreshAccess : Nat → Except Thrown Bool) (second : Attempt) :
    (execute T operation first refreshAccess second).1.length ≤ 2
      ∧ (1 < (execute T operation first refreshAccess second).1.length →
        operation.idempotent = true ∧ ∃ answer, first.exchange = .answered answer
          ∧ answer.status = 401 ∧ ErrorAnswer T.parseJson (optionsOf T operation) answer
            (named "device_access_expired"))
      ∧ (operation.idempotent = false →
        (Reported T operation first (execute T operation first refreshAccess second)
          ↔ ((∃ lease, first.lease = .ok lease) → Conforms T operation first))) :=
  ⟨(execute_sent T operation first refreshAccess second).1,
    (execute_sent T operation first refreshAccess second).2, reported_iff⟩

end Execute

/-! ## A mutation that is answered with a page -/

def localTransport : Transport where
  origin := "https://yuance.test"
  maxResponseBytes := 262144
  parseJson := fun _ => none

def revokeSession : Operation Unit where
  method := "DELETE"
  path := "/api/v1/me/device-sessions/7"
  contentType := none
  editorContext := none
  body := none
  idempotent := false
  maxResponseBytes := none
  allowNoContent := false
  dataKind := .object
  parse := fun _ => some ()

/-- A proxy has answered for a server that it could not reach. -/
def gatewayPage : Answer where
  status := 502
  redirected := false
  url := "https://yuance.test/api/v1/me/device-sessions/7"
  contentType := "text/html"
  declared := none
  aborted := false
  body := none

def answeredWith (answer : Answer) : Attempt where
  lease := .ok ("yuance_dat_1", 1)
  exchange := .answered answer
  stale := false

def noRefresh (_ : Nat) : Except Thrown Bool := .ok false

/-- A request that fails in the network is reported as it should be. -/
theorem failed_request_reported :
    Reported localTransport revokeSession
      { answeredWith gatewayPage with exchange := .failed false }
      (execute localTransport revokeSession
        { answeredWith gatewayPage with exchange := .failed false } noRefresh
        (answeredWith gatewayPage)) := by
  refine ((execute_reported_iff localTransport revokeSession
    { answeredWith gatewayPage with exchange := .failed false } noRefresh
    (answeredWith gatewayPage)).2.2 rfl).mpr fun _ => ⟨?_, ?_⟩
  · intro answer hanswer
    cases hanswer
  · intro answer data value hanswer
    cases hanswer

/-- The mutation is sent, and its rejection says `invalid_content_type`. -/
theorem page_is_not_uncertain :
    (execute localTransport revokeSession (answeredWith gatewayPage) noRefresh
        (answeredWith gatewayPage)).1.length = 1
      ∧ (execute localTransport revokeSession (answeredWith gatewayPage) noRefresh
          (answeredWith gatewayPage)).2
        = .error (.contract (named "invalid_content_type") (some 502))
      ∧ ¬ Reported localTransport revokeSession (answeredWith gatewayPage)
        (execute localTransport revokeSession (answeredWith gatewayPage) noRefresh
          (answeredWith gatewayPage)) := by
  refine ⟨rfl, rfl, ?_⟩
  intro hreported
  obtain ⟨answer, hanswer, herror⟩ := hreported (List.cons_ne_nil _ _) _ rfl
    (fun h => absurd (JsonValue.str.inj (Option.some.inj h)) (by decide))
  cases hanswer
  obtain ⟨json, hread, _⟩ := herror.envelope
  exact absurd hread.contentType (by decide)

end Rest
end Network
end Yuance
