import Mathlib
import Yuance.Lib.Bytes

/-!
# Yuance.Network.ResponseContract

`desktop/src/network/response-contract.mjs`: the checks of a response, its head first and then its
body chunk by chunk. What `JSON.parse` makes of the decoded bytes is a parameter. Each read carries
the state of the abort signal when it settles; a read that does not settle is ended by the timeout.

* `parseJsonResponse`: the value, or what is thrown and whether the signal is aborted by then.
* `ErrorAnswer`: the server has answered with a valid error envelope.
* `Flaw`: an answer that breaks the contract in its head, its size or its envelope.
* `parseJsonResponse_verdict`: everything that is returned or thrown, next to what the answer is.
-/

namespace Yuance
namespace Network
namespace Rest

open Lib

/-! ## Values -/

inductive JsonValue where
  | null
  | bool (b : Bool)
  | num (q : Rat)
  | str (s : String)
  | arr (items : List JsonValue)
  | obj (fields : List (String × JsonValue))

/-- A property of an object; `none` stands for `undefined`. -/
def JsonValue.get? (value : JsonValue) (key : String) : Option JsonValue :=
  match value with
  | .obj fields => (fields.find? fun field => field.1 = key).map Prod.snd
  | _ => none

def isPlainObject : JsonValue → Bool
  | .obj _ => true
  | _ => false

def objectKeys : JsonValue → List String
  | .obj fields => fields.map Prod.fst
  | _ => []

/-- A lower-case letter and at most 63 such letters, digits and underscores. -/
def isErrorCode : List Char → Bool
  | [] => false
  | c :: cs => c.isLower && cs.length ≤ 63 && cs.all fun c => c.isLower || c.isDigit || c = '_'

/-- `ERROR_CODE.test(value)`, which takes the text of any value: a number begins with a digit or a
sign, an object with a bracket, and an array joins its items with commas, `null` as nothing. -/
def testErrorCode : JsonValue → Bool
  | .null => isErrorCode "null".toList
  | .bool b => isErrorCode (toString b).toList
  | .num _ => false
  | .str s => isErrorCode s.toList
  | .arr [] => false
  | .arr [.null] => false
  | .arr [item] => testErrorCode item
  | .arr (_ :: _ :: _) => false
  | .obj _ => false

/-- `Number.isSafeInteger(value) && value > 0`. -/
def isRetryAfter : JsonValue → Bool
  | .num q => q.den = 1 && 0 < q.num && q.num ≤ 2 ^ 53 - 1
  | _ => false

def isText : JsonValue → Bool
  | .str _ => true
  | _ => false

def validErrorEnvelope (value : JsonValue) : Bool :=
  match value.get? "error" with
  | none => false
  | some error =>
    isPlainObject value && (objectKeys value).length = 1 && isPlainObject error &&
      (objectKeys error).all (fun key => ["code", "message", "retry_after"].contains key) &&
      (match error.get? "code" with
        | none => isErrorCode "undefined".toList
        | some code => testErrorCode code) &&
      (error.get? "message").any isText &&
      (error.get? "retry_after").all isRetryAfter

/-- `parsed.error.code`. -/
def errorCode (value : JsonValue) : Option JsonValue :=
  (value.get? "error").bind fun error => error.get? "code"

inductive DataKind where
  | object
  | array
  | nullableObject
  deriving DecidableEq, Repr

def validDataRoot (value : Option JsonValue) (dataKind : DataKind) : Bool :=
  match dataKind, value with
  | .object, some (.obj _) => true
  | .array, some (.arr _) => true
  | .nullableObject, some .null => true
  | .nullableObject, some (.obj _) => true
  | _, _ => false

/-! ## Responses -/

inductive ReadOutcome where
  | chunk (value : Bytes)
  | done
  | failed

structure Read where
  outcome : ReadOutcome
  /-- `signal.aborted` when the read settles. -/
  aborted : Bool
  /-- `signal.aborted` when the reader has been cancelled. -/
  abortedAtCancel : Bool

structure Answer where
  status : Nat
  redirected : Bool
  url : String
  /-- `headers.get("content-type") || ""`. -/
  contentType : String
  /-- `Number(headers.get("content-length"))`, where it is finite. -/
  declared : Option Rat
  /-- `signal.aborted` when the response has come. -/
  aborted : Bool
  /-- What the reads of the body give, unless there is no body. -/
  body : Option (List Read)

/-- `response.ok`. -/
def Answer.ok (answer : Answer) : Bool := 200 ≤ answer.status && answer.status ≤ 299

/-- `/^application\/json(?:\s*;|$)/iu` of a header. -/
def isJsonContentType (value : String) : Bool :=
  (value.toList.take 16).map Char.toLower = "application/json".toList &&
    (value.toList.drop 16 = [] ||
      ((value.toList.drop 16).dropWhile fun c =>
        [0x9, 0xa, 0xb, 0xc, 0xd, 0x20, 0xa0].contains c.toNat).head? = some ';')

structure Options where
  expectedUrl : String
  maxResponseBytes : Nat
  allowEmptyUrl : Bool
  allowNoContent : Bool
  dataKind : DataKind

/-! ## What is thrown -/

inductive Thrown where
  /-- `ResponseContractError`; the code of an envelope may be any value. -/
  | contract (code : Option JsonValue) (status : Option Nat)
  /-- A `TypeError` or an `Error` without a code. -/
  | plain

structure Failure where
  error : Thrown
  /-- `signal.aborted` when it is caught. -/
  aborted : Bool

def named (code : String) : Option JsonValue := some (.str code)

def contractError (code : String) (status : Option Nat) (aborted : Bool) : Failure where
  error := .contract (named code) status
  aborted := aborted

/-! ## The functions -/

/-- The loop of `readBoundedJson`, with what has been received and the signal as it stands. -/
def readChunks (limit : Nat) (aborted : Bool) (received : Bytes) : List Read → Except Failure Bytes
  | [] => .error (contractError "request_aborted" none true)
  | read :: reads =>
    if aborted then .error (contractError "request_aborted" none true)
    else
      match read.outcome with
      | .failed =>
        if read.aborted then .error (contractError "request_aborted" none true)
        else .error (contractError "response_read_failed" none false)
      | .done =>
        if read.aborted then .error (contractError "request_aborted" none true) else .ok received
      | .chunk value =>
        if read.aborted then .error (contractError "request_aborted" none true)
        else if received.length + value.length > limit then
          .error (contractError "response_too_large" none read.abortedAtCancel)
        else readChunks limit read.aborted (received ++ value) reads

def readBoundedJson (parseJson : Bytes → Option JsonValue) (limit : Nat) (answer : Answer) :
    Except Failure JsonValue :=
  if answer.declared.any fun declared => (limit : Rat) < declared then
    .error (contractError "response_too_large" none answer.aborted)
  else
    match answer.body with
    | none =>
      match parseJson [] with
      | none => .error (contractError "invalid_json" none answer.aborted)
      | some value => .ok value
    | some reads =>
      match readChunks limit answer.aborted [] reads with
      | .error failure => .error failure
      | .ok bytes =>
        match parseJson bytes with
        | none => .error (contractError "invalid_json" none false)
        | some value => .ok value

def parseJsonResponse (parseJson : Bytes → Option JsonValue) (options : Options) (answer : Answer) :
    Except Failure JsonValue :=
  let status := some answer.status
  if options.expectedUrl = "" then .error { error := .plain, aborted := answer.aborted }
  else if options.maxResponseBytes < 1 ∨ options.maxResponseBytes > 2 ^ 53 - 1 then
    .error { error := .plain, aborted := answer.aborted }
  else if answer.redirected ∨ (300 ≤ answer.status ∧ answer.status < 400) then
    .error (contractError "redirect_not_allowed" status answer.aborted)
  else if (answer.url = "" ∧ options.allowEmptyUrl = false)
      ∨ (answer.url ≠ "" ∧ answer.url ≠ options.expectedUrl) then
    .error (contractError "response_url_mismatch" status answer.aborted)
  else if options.allowNoContent ∧ options.dataKind = .nullableObject ∧ answer.status = 204 then
    .ok .null
  else if isJsonContentType answer.contentType = false then
    .error (contractError "invalid_content_type" status answer.aborted)
  else
    match readBoundedJson parseJson options.maxResponseBytes answer with
    | .error failure => .error failure
    | .ok parsed =>
      -- the signal does not change between the last read and here
      let aborted := answer.body.isNone && answer.aborted
      if answer.ok = false then
        if validErrorEnvelope parsed = false then
          .error (contractError "invalid_error_response" status aborted)
        else .error { error := .contract (errorCode parsed) status, aborted := aborted }
      else if (isPlainObject parsed && (objectKeys parsed).length = 1 &&
          validDataRoot (parsed.get? "data") options.dataKind) = false then
        .error (contractError "invalid_response" status aborted)
      else .ok ((parsed.get? "data").getD .null)

/-! ## What an answer is -/

/-- The bytes of a body that is read to its end. -/
def bodyOf (aborted : Bool) : List Read → Option Bytes
  | [] => none
  | read :: reads =>
    if aborted || read.aborted then none
    else
      match read.outcome with
      | .failed => none
      | .done => some []
      | .chunk value => (bodyOf read.aborted reads).map fun bytes => value ++ bytes

def Answer.bytes (answer : Answer) : Option Bytes :=
  match answer.body with
  | none => some []
  | some reads => bodyOf answer.aborted reads

/-- A chunk goes past the limit, and the timeout does not end the request by then. -/
def overruns (limit : Nat) (aborted : Bool) (received : Nat) : List Read → Bool
  | [] => false
  | read :: reads =>
    if aborted || read.aborted then false
    else
      match read.outcome with
      | .failed => false
      | .done => false
      | .chunk value =>
        if received + value.length > limit then !read.abortedAtCancel
        else overruns limit read.aborted (received + value.length) reads

/-- Called with arguments that it takes, for a response of its own URL. -/
structure HeadAccepted (options : Options) (answer : Answer) : Prop where
  expectedUrl : options.expectedUrl ≠ ""
  limit : 1 ≤ options.maxResponseBytes ∧ options.maxResponseBytes ≤ 2 ^ 53 - 1
  direct : ¬ (answer.redirected ∨ (300 ≤ answer.status ∧ answer.status < 400))
  url : ¬ ((answer.url = "" ∧ options.allowEmptyUrl = false)
    ∨ (answer.url ≠ "" ∧ answer.url ≠ options.expectedUrl))

def NoContent (options : Options) (answer : Answer) : Prop :=
  options.allowNoContent ∧ options.dataKind = .nullableObject ∧ answer.status = 204

/-- The body is to be read as JSON. -/
structure JsonAccepted (options : Options) (answer : Answer) : Prop
    extends HeadAccepted options answer where
  content : ¬ NoContent options answer
  contentType : isJsonContentType answer.contentType = true
  declared :
    (answer.declared.any fun declared => (options.maxResponseBytes : Rat) < declared) = false

/-- The body is read to its end, within the limit, as the JSON value `json`. -/
structure ReadAs (parseJson : Bytes → Option JsonValue) (options : Options) (answer : Answer)
    (json : JsonValue) : Prop extends JsonAccepted options answer where
  body : ∃ bytes, answer.bytes = some bytes ∧ bytes.length ≤ options.maxResponseBytes
    ∧ parseJson bytes = some json

/-- The server has answered with a status that is not success and a valid envelope of the code. -/
structure ErrorAnswer (parseJson : Bytes → Option JsonValue) (options : Options) (answer : Answer)
    (code : Option JsonValue) : Prop where
  failed : answer.ok = false
  envelope : ∃ json, ReadAs parseJson options answer json ∧ validErrorEnvelope json = true
    ∧ errorCode json = code

/-- The server has answered with success and the data. -/
inductive DataAnswer (parseJson : Bytes → Option JsonValue) (options : Options) (answer : Answer) :
    JsonValue → Prop where
  | noContent (head : HeadAccepted options answer) (content : NoContent options answer) :
    DataAnswer parseJson options answer .null
  | data {json : JsonValue} (ok : answer.ok = true) (read : ReadAs parseJson options answer json)
    (root : (isPlainObject json && (objectKeys json).length = 1 &&
      validDataRoot (json.get? "data") options.dataKind) = true) :
    DataAnswer parseJson options answer ((json.get? "data").getD .null)

/-- What breaks the contract before the timeout: the head, the type, the size, the envelope. -/
inductive Flaw (parseJson : Bytes → Option JsonValue) (options : Options) (answer : Answer) :
    Prop where
  | head (h : ¬ HeadAccepted options answer) (aborted : answer.aborted = false)
  | contentType (head : HeadAccepted options answer) (content : ¬ NoContent options answer)
    (h : isJsonContentType answer.contentType = false) (aborted : answer.aborted = false)
  | declared (head : HeadAccepted options answer) (content : ¬ NoContent options answer)
    (contentType : isJsonContentType answer.contentType = true)
    (h : (answer.declared.any fun declared => (options.maxResponseBytes : Rat) < declared) = true)
    (aborted : answer.aborted = false)
  | overrun (json : JsonAccepted options answer) {reads : List Read}
    (body : answer.body = some reads)
    (h : overruns options.maxResponseBytes answer.aborted 0 reads = true)
  | envelope {json : JsonValue} (failed : answer.ok = false)
    (read : ReadAs parseJson options answer json) (h : validErrorEnvelope json = false)
    (aborted : answer.aborted = false)

/-- The codes that `parseJsonResponse` throws where it is not known what the server has done. -/
def uncertainCodes : List String :=
  ["request_aborted", "response_read_failed", "invalid_json", "invalid_response"]

/-- The codes that it throws of a flaw. -/
def flawCodes : List String :=
  ["redirect_not_allowed", "response_url_mismatch", "invalid_content_type", "response_too_large",
    "invalid_error_response"]

variable {parseJson : Bytes → Option JsonValue} {options : Options} {answer : Answer}
  {limit : Nat} {received bytes : Bytes} {aborted : Bool} {reads : List Read} {failure : Failure}

/-! ## Reading the body -/

/-- What the loop gives, next to what the body is. -/
inductive Reading (limit : Nat) (aborted : Bool) (received : Bytes) (reads : List Read) :
    Except Failure Bytes → Prop where
  | whole {rest : Bytes} (body : bodyOf aborted reads = some rest)
    (fits : received.length + rest.length ≤ limit)
    (within : overruns limit aborted received.length reads = false) :
    Reading limit aborted received reads (.ok (received ++ rest))
  | overrun (past : overruns limit aborted received.length reads = true)
    (long : ∀ rest, bodyOf aborted reads = some rest → limit < received.length + rest.length) :
    Reading limit aborted received reads (.error (contractError "response_too_large" none false))
  | broken {failure : Failure} (within : overruns limit aborted received.length reads = false)
    (long : ∀ rest, bodyOf aborted reads = some rest → limit < received.length + rest.length)
    (cause : failure.aborted = true
      ∨ ∃ code ∈ uncertainCodes, failure = contractError code none false) :
    Reading limit aborted received reads (.error failure)

/-- The loop is over where the signal is aborted. -/
theorem Reading.stopped {read : Read} (h : (aborted || read.aborted) = true) :
    Reading limit aborted received (read :: reads)
      (.error (contractError "request_aborted" none true)) := by
  refine .broken ?_ ?_ (.inl rfl)
  · unfold overruns
    rw [if_pos h]
  · intro rest hrest
    unfold bodyOf at hrest
    rw [if_pos h] at hrest
    cases hrest

theorem reading (hreceived : received.length ≤ limit) :
    Reading limit aborted received reads (readChunks limit aborted received reads) := by
  induction reads generalizing aborted received with
  | nil => exact .broken rfl (fun rest hrest => nomatch hrest) (.inl rfl)
  | cons read reads ih =>
    by_cases hsignal : (aborted || read.aborted) = true
    · have hstop : readChunks limit aborted received (read :: reads)
          = .error (contractError "request_aborted" none true) := by
        unfold readChunks
        cases aborted with
        | true => rfl
        | false =>
          rw [Bool.false_or] at hsignal
          rw [hsignal]
          cases read.outcome
          · rfl
          · rfl
          · rfl
      rw [hstop]
      exact .stopped hsignal
    · obtain ⟨haborted, hread⟩ := Bool.or_eq_false_iff.mp (eq_false_of_ne_true hsignal)
      have hbody : bodyOf aborted (read :: reads) = match read.outcome with
          | .failed => none
          | .done => some []
          | .chunk value => (bodyOf read.aborted reads).map fun bytes => value ++ bytes := by
        rw [bodyOf, if_neg hsignal]
      have hover : overruns limit aborted received.length (read :: reads) = match read.outcome with
          | .failed => false
          | .done => false
          | .chunk value =>
            if received.length + value.length > limit then !read.abortedAtCancel
            else overruns limit read.aborted (received.length + value.length) reads := by
        rw [overruns, if_neg hsignal]
      unfold readChunks
      rw [haborted, if_neg Bool.false_ne_true]
      rw [haborted] at hbody hover
      cases houtcome : read.outcome with
      | failed =>
        rw [houtcome] at hbody hover
        dsimp only at hbody hover ⊢
        rw [hread, if_neg Bool.false_ne_true]
        exact .broken hover (fun rest hrest => by rw [hbody] at hrest; cases hrest)
          (.inr ⟨_, by decide, rfl⟩)
      | done =>
        rw [houtcome] at hbody hover
        dsimp only at hbody hover ⊢
        rw [hread, if_neg Bool.false_ne_true]
        have hwhole := @Reading.whole limit false received (read :: reads) [] hbody hreceived hover
        rwa [List.append_nil] at hwhole
      | chunk value =>
        rw [houtcome] at hbody hover
        dsimp only at hbody hover ⊢
        rw [hread, if_neg Bool.false_ne_true]
        rw [hread] at hbody hover
        by_cases hlong : received.length + value.length > limit
        · rw [if_pos hlong] at hover ⊢
          have hall : ∀ rest, bodyOf false (read :: reads) = some rest →
              limit < received.length + rest.length := by
            intro rest hrest
            rw [hbody] at hrest
            obtain ⟨tail, _, rfl⟩ := Option.map_eq_some_iff.mp hrest
            rw [List.length_append]
            omega
          cases hcancel : read.abortedAtCancel with
          | true =>
            rw [hcancel] at hover
            exact .broken hover hall (.inl rfl)
          | false =>
            rw [hcancel] at hover
            exact .overrun hover hall
        · rw [if_neg hlong] at hover ⊢
          have hnext := @ih (received ++ value) false (by
            rw [List.length_append]
            omega)
          generalize readChunks limit false (received ++ value) reads = result at hnext ⊢
          cases hnext with
          | @whole rest body fits within =>
            rw [List.length_append] at fits within
            rw [body] at hbody
            rw [List.append_assoc]
            refine .whole hbody ?_ (hover.trans within)
            rw [List.length_append]
            omega
          | overrun past long =>
            rw [List.length_append] at past
            refine .overrun (hover.trans past) ?_
            intro rest hrest
            rw [hbody] at hrest
            obtain ⟨tail, htail, rfl⟩ := Option.map_eq_some_iff.mp hrest
            have hlarge := long tail htail
            rw [List.length_append] at hlarge ⊢
            omega
          | broken within long cause =>
            rw [List.length_append] at within
            refine .broken (hover.trans within) ?_ cause
            intro rest hrest
            rw [hbody] at hrest
            obtain ⟨tail, htail, rfl⟩ := Option.map_eq_some_iff.mp hrest
            have hlarge := long tail htail
            rw [List.length_append] at hlarge ⊢
            omega

/-! ## The whole response -/

/-- What `parseJsonResponse` gives, next to what the answer is. -/
inductive Verdict (parseJson : Bytes → Option JsonValue) (options : Options) (answer : Answer) :
    Except Failure JsonValue → Prop where
  | data {data : JsonValue} (h : DataAnswer parseJson options answer data) :
    Verdict parseJson options answer (.ok data)
  | error {code : Option JsonValue} {aborted : Bool}
    (h : ErrorAnswer parseJson options answer code) :
    Verdict parseJson options answer
      (.error { error := .contract code (some answer.status), aborted := aborted })
  | flaw {failure : Failure} (h : Flaw parseJson options answer)
    (cause : failure.aborted = false ∧ (failure.error = .plain
      ∨ ∃ code ∈ flawCodes, ∃ status, failure.error = .contract (named code) status)) :
    Verdict parseJson options answer (.error failure)
  | broken {failure : Failure} (sound : ¬ Flaw parseJson options answer)
    (empty : ∀ data, ¬ DataAnswer parseJson options answer data)
    (cause : failure.aborted = true
      ∨ ∃ code ∈ uncertainCodes, ∃ status, failure.error = .contract (named code) status) :
    Verdict parseJson options answer (.error failure)

theorem ReadAs.unique {json json' : JsonValue} (h : ReadAs parseJson options answer json)
    (h' : ReadAs parseJson options answer json') : json = json' := by
  obtain ⟨bytes, hbytes, _, hjson⟩ := h.body
  obtain ⟨bytes', hbytes', _, hjson'⟩ := h'.body
  rw [hbytes] at hbytes'
  cases hbytes'
  rw [hjson] at hjson'
  exact Option.some.inj hjson'

/-- A body that overruns is not read. -/
theorem not_readAs_of_overruns {json : JsonValue} (hbody : answer.body = some reads)
    (h : overruns options.maxResponseBytes answer.aborted 0 reads = true) :
    ¬ ReadAs parseJson options answer json := by
  intro hread
  obtain ⟨bytes, hbytes, hlength, _⟩ := hread.body
  unfold Answer.bytes at hbytes
  rw [hbody] at hbytes
  have hreading := @reading options.maxResponseBytes [] answer.aborted reads (Nat.zero_le _)
  generalize readChunks options.maxResponseBytes answer.aborted [] reads = result at hreading
  cases hreading with
  | whole _ _ within =>
    rw [List.length_nil, h] at within
    cases within
  | overrun _ long =>
    have := long bytes hbytes
    rw [List.length_nil] at this
    omega
  | broken within _ _ =>
    rw [List.length_nil, h] at within
    cases within

/-- An answer with a flaw carries no error. -/
theorem Flaw.not_errorAnswer {code : Option JsonValue} (h : Flaw parseJson options answer) :
    ¬ ErrorAnswer parseJson options answer code := by
  rintro ⟨_, json, hread, hvalid, _⟩
  cases h with
  | head h _ => exact h hread.toHeadAccepted
  | contentType _ _ h _ =>
    rw [hread.contentType] at h
    cases h
  | declared _ _ _ h _ =>
    rw [hread.declared] at h
    cases h
  | overrun _ body h => exact not_readAs_of_overruns body h hread
  | envelope _ read h _ =>
    rw [read.unique hread, hvalid] at h
    cases h

theorem DataAnswer.head {data : JsonValue} (h : DataAnswer parseJson options answer data) :
    HeadAccepted options answer := by
  cases h with
  | noContent head _ => exact head
  | data _ read _ => exact read.toHeadAccepted

/-- Data come without a body, or are read. -/
theorem DataAnswer.content_or_read {data : JsonValue}
    (h : DataAnswer parseJson options answer data) :
    NoContent options answer ∨ (answer.ok = true ∧ ∃ json, ReadAs parseJson options answer json
      ∧ (isPlainObject json && (objectKeys json).length = 1 &&
        validDataRoot (json.get? "data") options.dataKind) = true) := by
  cases h with
  | noContent _ content => exact .inl content
  | data ok read root => exact .inr ⟨ok, _, read, root⟩

/-- The head is refused. -/
theorem verdict_of_head (h : ¬ HeadAccepted options answer) {error : Thrown}
    (herror : error = .plain
      ∨ ∃ code ∈ flawCodes, ∃ status, error = .contract (named code) status) :
    Verdict parseJson options answer (.error { error := error, aborted := answer.aborted }) := by
  cases haborted : answer.aborted with
  | true =>
    refine .broken ?_ (fun data hdata => h hdata.head) (.inl rfl)
    intro hflaw
    cases hflaw with
    | head _ hnot => rw [haborted] at hnot; cases hnot
    | contentType head _ _ _ => exact h head
    | declared head _ _ _ _ => exact h head
    | overrun json _ _ => exact h json.toHeadAccepted
    | envelope _ read _ _ => exact h read.toHeadAccepted
  | false => exact .flaw (.head h haborted) ⟨rfl, herror⟩

/-- What an accepted body is read as, or why it is not. -/
theorem readBoundedJson_cases (hjson : JsonAccepted options answer) :
    (∃ json, readBoundedJson parseJson options.maxResponseBytes answer = .ok json
      ∧ ReadAs parseJson options answer json)
    ∨ (∃ failure, readBoundedJson parseJson options.maxResponseBytes answer = .error failure
      ∧ Verdict parseJson options answer (.error failure)) := by
  have hdeclared := hjson.declared
  -- no flaw but an overrun is left
  have hsound : (∀ reads, answer.body = some reads →
      overruns options.maxResponseBytes answer.aborted 0 reads = false) →
      (∀ json, ¬ ReadAs parseJson options answer json) → ¬ Flaw parseJson options answer := by
    intro hwithin hnone hflaw
    cases hflaw with
    | head h _ => exact h hjson.toHeadAccepted
    | contentType _ _ h _ =>
      rw [hjson.contentType] at h
      cases h
    | declared _ _ _ h _ =>
      rw [hdeclared] at h
      cases h
    | overrun _ body h =>
      rw [hwithin _ body] at h
      cases h
    | envelope _ read _ _ => exact hnone _ read
  have hempty : (∀ json, ¬ ReadAs parseJson options answer json) →
      ∀ data, ¬ DataAnswer parseJson options answer data := by
    intro hnone data hdata
    rcases hdata.content_or_read with hcontent | ⟨_, json, hread, _⟩
    · exact hjson.content hcontent
    · exact hnone json hread
  unfold readBoundedJson
  rw [hdeclared, if_neg Bool.false_ne_true]
  cases hbody : answer.body with
  | none =>
    have hbytes : answer.bytes = some [] := by
      unfold Answer.bytes
      rw [hbody]
    dsimp only
    cases hparse : parseJson [] with
    | some json => exact .inl ⟨json, rfl, hjson, [], hbytes, Nat.zero_le _, hparse⟩
    | none =>
      have hnone : ∀ json, ¬ ReadAs parseJson options answer json := by
        intro json hread
        obtain ⟨bytes, hbytes', _, hjson'⟩ := hread.body
        rw [hbytes] at hbytes'
        cases hbytes'
        rw [hparse] at hjson'
        cases hjson'
      refine .inr ⟨_, rfl, .broken (hsound (fun reads hreads => ?_) hnone) (hempty hnone)
        (.inr ⟨"invalid_json", by decide, none, rfl⟩)⟩
      rw [hbody] at hreads
      cases hreads
  | some reads =>
    have hbytes : answer.bytes = bodyOf answer.aborted reads := by
      unfold Answer.bytes
      rw [hbody]
    dsimp only
    have hreading := @reading options.maxResponseBytes [] answer.aborted reads (Nat.zero_le _)
    generalize readChunks options.maxResponseBytes answer.aborted [] reads = result at hreading
    cases hreading with
    | @whole rest body fits within =>
      rw [List.length_nil, Nat.zero_add] at fits
      rw [body] at hbytes
      dsimp only
      rw [List.nil_append]
      cases hparse : parseJson rest with
      | some json => exact .inl ⟨json, rfl, hjson, rest, hbytes, fits, hparse⟩
      | none =>
        have hnone : ∀ json, ¬ ReadAs parseJson options answer json := by
          intro json hread
          obtain ⟨bytes, hbytes', _, hjson'⟩ := hread.body
          rw [hbytes] at hbytes'
          cases hbytes'
          rw [hparse] at hjson'
          cases hjson'
        refine .inr ⟨_, rfl, .broken (hsound (fun reads' hreads => ?_) hnone) (hempty hnone)
          (.inr ⟨"invalid_json", by decide, none, rfl⟩)⟩
        rw [hbody] at hreads
        cases hreads
        exact within
    | overrun past _ =>
      exact .inr ⟨_, rfl, .flaw (.overrun hjson hbody past)
        ⟨rfl, .inr ⟨"response_too_large", by decide, none, rfl⟩⟩⟩
    | @broken failure within long cause =>
      have hnone : ∀ json, ¬ ReadAs parseJson options answer json := by
        intro json hread
        obtain ⟨bytes, hbytes', hlength, _⟩ := hread.body
        rw [hbytes] at hbytes'
        have := long bytes hbytes'
        rw [List.length_nil] at this
        omega
      refine .inr ⟨_, rfl, .broken (hsound (fun reads' hreads => ?_) hnone) (hempty hnone) ?_⟩
      · rw [hbody] at hreads
        cases hreads
        exact within
      · rcases cause with haborted | ⟨code, hcode, rfl⟩
        · exact .inl haborted
        · exact .inr ⟨code, hcode, none, rfl⟩

/-- An answer that is read as JSON has no other flaw than a bad envelope. -/
theorem ReadAs.not_flaw {json : JsonValue} (hread : ReadAs parseJson options answer json)
    (h : answer.ok = false → answer.aborted = false → validErrorEnvelope json = true) :
    ¬ Flaw parseJson options answer := by
  intro hflaw
  cases hflaw with
  | head hhead _ => exact hhead hread.toHeadAccepted
  | contentType _ _ htype _ =>
    rw [hread.contentType] at htype
    cases htype
  | declared _ _ _ hdeclared _ =>
    rw [hread.declared] at hdeclared
    cases hdeclared
  | overrun _ body hpast => exact not_readAs_of_overruns body hpast hread
  | envelope failed read hinvalid haborted =>
    rw [read.unique hread, h failed haborted] at hinvalid
    cases hinvalid

/-- Where the body has been read, the signal is aborted only if there is no body. -/
theorem ReadAs.aborted_eq {json : JsonValue} (hread : ReadAs parseJson options answer json) :
    (answer.body.isNone && answer.aborted) = answer.aborted := by
  obtain ⟨bytes, hbytes, _, _⟩ := hread.body
  unfold Answer.bytes at hbytes
  cases hbody : answer.body with
  | none => exact Bool.true_and _
  | some reads =>
    rw [hbody] at hbytes
    cases reads with
    | nil => cases hbytes
    | cons read reads =>
      dsimp only at hbytes
      unfold bodyOf at hbytes
      cases haborted : answer.aborted with
      | false => rfl
      | true =>
        rw [haborted] at hbytes
        cases hbytes

theorem verdict_of_read {json : JsonValue} (hread : ReadAs parseJson options answer json) :
    Verdict parseJson options answer
      (let status := some answer.status
        let aborted := answer.body.isNone && answer.aborted
        if answer.ok = false then
          if validErrorEnvelope json = false then
            .error (contractError "invalid_error_response" status aborted)
          else .error { error := .contract (errorCode json) status, aborted := aborted }
        else if (isPlainObject json && (objectKeys json).length = 1 &&
            validDataRoot (json.get? "data") options.dataKind) = false then
          .error (contractError "invalid_response" status aborted)
        else .ok ((json.get? "data").getD .null)) := by
  dsimp only
  rw [hread.aborted_eq]
  by_cases hok : answer.ok = false
  · rw [if_pos hok]
    by_cases hvalid : validErrorEnvelope json = false
    · rw [if_pos hvalid]
      cases haborted : answer.aborted with
      | true =>
        refine .broken (hread.not_flaw fun _ hnot => ?_) (fun data hdata => ?_) (.inl rfl)
        · rw [haborted] at hnot
          cases hnot
        · rcases hdata.content_or_read with hcontent | ⟨hnot, _⟩
          · exact hread.content hcontent
          · rw [hok] at hnot
            cases hnot
      | false =>
        exact .flaw (.envelope hok hread hvalid haborted)
          ⟨rfl, .inr ⟨"invalid_error_response", by decide, _, rfl⟩⟩
    · rw [if_neg hvalid]
      exact .error ⟨hok, json, hread, eq_true_of_ne_false hvalid, rfl⟩
  · rw [if_neg hok]
    by_cases hroot : (isPlainObject json && (objectKeys json).length = 1 &&
        validDataRoot (json.get? "data") options.dataKind) = false
    · rw [if_pos hroot]
      refine .broken (hread.not_flaw fun hnot _ => absurd hnot hok) (fun data hdata => ?_)
        (.inr ⟨"invalid_response", by decide, _, rfl⟩)
      rcases hdata.content_or_read with hcontent | ⟨_, json', hread', hroot'⟩
      · exact hread.content hcontent
      · rw [← hread.unique hread', hroot] at hroot'
        cases hroot'
    · rw [if_neg hroot]
      exact .data (.data (eq_true_of_ne_false hok) hread (eq_true_of_ne_false hroot))

theorem parseJsonResponse_verdict :
    Verdict parseJson options answer (parseJsonResponse parseJson options answer) := by
  unfold parseJsonResponse
  dsimp only
  by_cases hexpected : options.expectedUrl = ""
  · rw [if_pos hexpected]
    exact verdict_of_head (fun head => head.expectedUrl hexpected) (.inl rfl)
  rw [if_neg hexpected]
  by_cases hlimit : options.maxResponseBytes < 1 ∨ options.maxResponseBytes > 2 ^ 53 - 1
  · rw [if_pos hlimit]
    refine verdict_of_head (fun head => ?_) (.inl rfl)
    have := head.limit
    omega
  rw [if_neg hlimit]
  by_cases hredirected : answer.redirected ∨ (300 ≤ answer.status ∧ answer.status < 400)
  · rw [if_pos hredirected]
    exact verdict_of_head (fun head => head.direct hredirected)
      (.inr ⟨"redirect_not_allowed", by decide, _, rfl⟩)
  rw [if_neg hredirected]
  by_cases hurl : (answer.url = "" ∧ options.allowEmptyUrl = false)
      ∨ (answer.url ≠ "" ∧ answer.url ≠ options.expectedUrl)
  · rw [if_pos hurl]
    exact verdict_of_head (fun head => head.url hurl)
      (.inr ⟨"response_url_mismatch", by decide, _, rfl⟩)
  rw [if_neg hurl]
  have hhead : HeadAccepted options answer :=
    ⟨hexpected, by omega, hredirected, hurl⟩
  by_cases hcontent : options.allowNoContent ∧ options.dataKind = .nullableObject
      ∧ answer.status = 204
  · rw [if_pos hcontent]
    exact .data (.noContent hhead hcontent)
  rw [if_neg hcontent]
  by_cases htype : isJsonContentType answer.contentType = false
  · rw [if_pos htype]
    cases haborted : answer.aborted with
    | true =>
      refine .broken (fun hflaw => ?_) (fun data hdata => ?_) (.inl rfl)
      · cases hflaw with
        | head hnot _ => exact hnot hhead
        | contentType _ _ _ hnot => rw [haborted] at hnot; cases hnot
        | declared _ _ hjson _ _ => rw [htype] at hjson; cases hjson
        | overrun json _ _ => rw [json.contentType] at htype; cases htype
        | envelope _ read _ _ => rw [read.contentType] at htype; cases htype
      · rcases hdata.content_or_read with hnot | ⟨_, _, hread, _⟩
        · exact hcontent hnot
        · rw [hread.contentType] at htype
          cases htype
    | false =>
      exact .flaw (.contentType hhead hcontent htype haborted)
        ⟨rfl, .inr ⟨"invalid_content_type", by decide, _, rfl⟩⟩
  rw [if_neg htype]
  by_cases hdeclared : (answer.declared.any fun declared =>
      (options.maxResponseBytes : Rat) < declared) = true
  · have hread : readBoundedJson parseJson options.maxResponseBytes answer
        = .error (contractError "response_too_large" none answer.aborted) := by
      unfold readBoundedJson
      exact if_pos hdeclared
    rw [hread]
    dsimp only
    cases haborted : answer.aborted with
    | true =>
      refine .broken (fun hflaw => ?_) (fun data hdata => ?_) (.inl rfl)
      · cases hflaw with
        | head hnot _ => exact hnot hhead
        | contentType _ _ hnot _ => exact htype hnot
        | declared _ _ _ _ hnot => rw [haborted] at hnot; cases hnot
        | overrun json _ _ => rw [json.declared] at hdeclared; cases hdeclared
        | envelope _ read _ _ => rw [read.declared] at hdeclared; cases hdeclared
      · rcases hdata.content_or_read with hnot | ⟨_, _, hread, _⟩
        · exact hcontent hnot
        · rw [hread.declared] at hdeclared
          cases hdeclared
    | false =>
      exact .flaw (.declared hhead hcontent (eq_true_of_ne_false htype) hdeclared haborted)
        ⟨rfl, .inr ⟨"response_too_large", by decide, none, rfl⟩⟩
  have hjson : JsonAccepted options answer :=
    ⟨hhead, hcontent, eq_true_of_ne_false htype, eq_false_of_ne_true hdeclared⟩
  rcases @readBoundedJson_cases parseJson options answer hjson with ⟨json, hread, hreadAs⟩ |
    ⟨failure, hread, hverdict⟩
  · rw [hread]
    exact verdict_of_read hreadAs
  · rw [hread]
    exact hverdict

/-! ## Data -/

theorem DataAnswer.ok {data : JsonValue} (h : DataAnswer parseJson options answer data) :
    answer.ok = true := by
  rcases h.content_or_read with hcontent | ⟨hok, _⟩
  · unfold Answer.ok
    rw [hcontent.2.2]
    rfl
  · exact hok

theorem DataAnswer.not_errorAnswer {data : JsonValue} {code : Option JsonValue}
    (h : DataAnswer parseJson options answer data) :
    ¬ ErrorAnswer parseJson options answer code := by
  intro herror
  have hok := h.ok
  rw [herror.failed] at hok
  cases hok

theorem DataAnswer.not_flaw {data : JsonValue} (h : DataAnswer parseJson options answer data) :
    ¬ Flaw parseJson options answer := by
  have hok := h.ok
  have hhead := h.head
  cases h with
  | noContent _ content =>
    intro hflaw
    cases hflaw with
    | head hnot _ => exact hnot hhead
    | contentType _ hnot _ _ => exact hnot content
    | declared _ hnot _ _ _ => exact hnot content
    | overrun json _ _ => exact json.content content
    | envelope _ read _ _ => exact read.content content
  | data _ read _ =>
    refine read.not_flaw fun hnot _ => ?_
    rw [hok] at hnot
    cases hnot

theorem DataAnswer.unique {data data' : JsonValue} (h : DataAnswer parseJson options answer data)
    (h' : DataAnswer parseJson options answer data') : data = data' := by
  cases h with
  | noContent _ content =>
    cases h' with
    | noContent _ _ => rfl
    | data _ read _ => exact absurd content read.content
  | data _ read _ =>
    cases h' with
    | noContent _ content => exact absurd content read.content
    | data _ read' _ => rw [read.unique read']

/-- Data are handed on. -/
theorem parseJsonResponse_of_data {data : JsonValue}
    (h : DataAnswer parseJson options answer data) :
    parseJsonResponse parseJson options answer = .ok data := by
  have hverdict := @parseJsonResponse_verdict parseJson options answer
  generalize parseJsonResponse parseJson options answer = result at hverdict
  cases hverdict with
  | data h' => rw [h.unique h']
  | error herror => exact absurd herror h.not_errorAnswer
  | flaw hflaw _ => exact absurd hflaw h.not_flaw
  | broken _ empty _ => exact absurd h (empty data)

end Rest
end Network
end Yuance
