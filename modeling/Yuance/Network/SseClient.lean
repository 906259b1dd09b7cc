import Yuance.Lib.Streams
import Yuance.Network.ResponseContract

/-!
# Yuance.Network.SseClient

The read loop of `subscribe` in `desktop/src/network/sse-client.mjs`: the chunks of the body go
through the decoder, the buffer gate and the parser, and the loop takes the events. The decoder and
the parser are parameters; what comes out of them does not depend on the chunks. The clock stands
still, and nothing aborts or becomes idle. What a chunk brings is handled before the next one comes.

* `lastFrame`, `subscribe`: what the gate measures, and the controls with the end of the stream.
* `rejectedAfter`: the chunks before the one that the gate rejects.
* `subscribe_eq`: the result, from the whole stream or from what came before the rejection.
* `subscribe_eq_iff`: when two ways of cutting a stream mean the same.
-/

namespace Yuance
namespace Network
namespace Sse

open Lib Rest

/-! ## Events -/

structure Message where
  event : Option String
  id : Option String
  data : Option String
  deriving DecidableEq, Repr

/-- What the parser puts out: an event, or the value that `onRetry` is called with. -/
inductive Item where
  | message (value : Message)
  | retry (value : Nat)
  deriving DecidableEq, Repr

inductive Control where
  | connected
  | topbar (reason : String)
  | releaseVersion (version : String)
  deriving DecidableEq, Repr

/-- Why the loop throws, apart from the gate. -/
inductive Stop where
  | invalidUtf8
  | invalidStream
  | eventTooLarge
  | eventRateExceeded
  | invalidControlEvent
  deriving DecidableEq, Repr

inductive Ending where
  | eof (retryHint : Option Nat)
  | failed (stop : Stop)
  | bufferTooLarge
  deriving DecidableEq, Repr

/-- The code of the error, if there is one. -/
def Ending.code : Ending → Option String
  | .eof _ => none
  | .failed .invalidUtf8 => some "invalid_utf8"
  | .failed .invalidStream => some "invalid_stream"
  | .failed .eventTooLarge => some "event_too_large"
  | .failed .eventRateExceeded => some "event_rate_exceeded"
  | .failed .invalidControlEvent => some "invalid_control_event"
  | .bufferTooLarge => some "buffer_too_large"

/-- The client, with a decoder, a parser and `JSON.parse`. -/
structure Client (σ τ : Type) where
  decoder : Stage σ UInt8 Char Unit
  /-- The decoder is not in the middle of a character. -/
  flushes : σ → Bool
  parser : Stage τ Char Item Unit
  parseJson : String → Option JsonValue
  maxBufferBytes : Nat
  maxEventBytes : Nat
  maxEventsPerWindow : Nat
  rateWindowMs : Nat
  now : Int

/-! ## The loop -/

structure Loop where
  eventTimes : List Int
  retryHint : Option Nat
  deriving DecidableEq, Repr

/-- `Object.keys(value).sort()` is `expected`. -/
def sameKeys (value : JsonValue) (expected : List String) : Bool :=
  (objectKeys value).isPerm expected

/-- `data.schema_version === 1`. -/
def isSchemaOne (data : JsonValue) : Bool :=
  match data.get? "schema_version" with
  | some (.num q) => q = 1
  | _ => false

def isVersionChar (c : Char) : Bool := c.isAlphanum || ['.', '_', '+', '-'].contains c

/-- `/^[0-9A-Za-z][0-9A-Za-z._+-]{0,63}$/u`. -/
def isVersion (version : String) : Bool :=
  match version.toList with
  | [] => false
  | c :: cs => c.isAlphanum && cs.length ≤ 63 && cs.all isVersionChar

/-- The control of an event of the three kinds; other events have none. -/
def decodeControl (parseJson : String → Option JsonValue) (message : Message) :
    Except Stop (Option Control) :=
  match message.event with
  | some "connected" =>
    match message.data.bind parseJson with
    | none => .error .invalidControlEvent
    | some data =>
      if sameKeys data ["schema_version"] && isSchemaOne data then .ok (some .connected)
      else .error .invalidControlEvent
  | some "topbar" =>
    match message.data.bind parseJson with
    | none => .error .invalidControlEvent
    | some data =>
      match data.get? "reason" with
      | some (.str reason) =>
        if sameKeys data ["reason", "schema_version"] && isSchemaOne data &&
            ["connected", "refresh"].contains reason then .ok (some (.topbar reason))
        else .error .invalidControlEvent
      | _ => .error .invalidControlEvent
  | some "release-version" =>
    match message.data.bind parseJson with
    | none => .error .invalidControlEvent
    | some data =>
      match data.get? "version" with
      | some (.str version) =>
        if sameKeys data ["schema_version", "version"] && isSchemaOne data && isVersion version then
          .ok (some (.releaseVersion version))
        else .error .invalidControlEvent
      | _ => .error .invalidControlEvent
  | _ => .ok none

def eventBytes (message : Message) : Nat :=
  (message.event.getD "" ++ "\n" ++ message.id.getD "" ++ "\n" ++ message.data.getD "").utf8ByteSize

section Client

variable {σ τ : Type}

/-- One round of the loop. -/
def handle (C : Client σ τ) (loop : Loop) : Item → List Control × Except Stop Loop
  | .retry value => ([], .ok { loop with retryHint := some value })
  | .message message =>
    if eventBytes message > C.maxEventBytes then ([], .error .eventTooLarge)
    else
      let recent := loop.eventTimes.dropWhile fun time => C.rateWindowMs ≤ C.now - time
      let eventTimes := recent ++ [C.now]
      if eventTimes.length > C.maxEventsPerWindow then ([], .error .eventRateExceeded)
      else
        match decodeControl C.parseJson message with
        | .error stop => ([], .error stop)
        | .ok control => (control.toList, .ok { loop with eventTimes := eventTimes })

def loopStage (C : Client σ τ) : Stage Loop Item Control Stop :=
  .ofStep { eventTimes := [], retryHint := none } (handle C)

/-- The decoder, the parser and the loop, one behind the other. -/
def pipeline (C : Client σ τ) : Stage ((σ × τ) × Loop) UInt8 Control Stop :=
  ((C.decoder.failWith .invalidUtf8).comp (C.parser.failWith .invalidStream)).comp (loopStage C)

end Client

/-! ## The gate -/

/-- `\r\n|\r|\n`: what stands behind it. -/
def lineEnd? : List Char → Option (List Char)
  | '\r' :: '\n' :: rest => some rest
  | '\r' :: rest => some rest
  | '\n' :: rest => some rest
  | _ => none

/-- `(?:\r\n|\r|\n)(?:\r\n|\r|\n)`: a `\r\n` with no line end behind it is matched as two. -/
def doubleEnd? : List Char → Option (List Char)
  | '\r' :: '\n' :: rest => some ((lineEnd? rest).getD rest)
  | '\r' :: rest => lineEnd? rest
  | '\n' :: rest => lineEnd? rest
  | _ => none

/-- What stands behind the first match. -/
def behindDouble? : List Char → Option (List Char)
  | [] => none
  | c :: cs =>
    match doubleEnd? (c :: cs) with
    | some rest => some rest
    | none => behindDouble? cs

theorem lineEnd?_suffix {text rest : List Char} (h : lineEnd? text = some rest) :
    rest <:+ text ∧ rest.length < text.length := by
  unfold lineEnd? at h
  split at h
  · cases h
    exact ⟨⟨['\r', '\n'], rfl⟩, by simp⟩
  · cases h
    exact ⟨⟨['\r'], rfl⟩, by simp⟩
  · cases h
    exact ⟨⟨['\n'], rfl⟩, by simp⟩
  · cases h

theorem doubleEnd?_suffix {text rest : List Char} (h : doubleEnd? text = some rest) :
    rest <:+ text ∧ rest.length < text.length := by
  unfold doubleEnd? at h
  split at h
  · rename_i rest'
    cases hline : lineEnd? rest' with
    | none =>
      rw [hline] at h
      cases h
      exact ⟨⟨['\r', '\n'], rfl⟩, by simp⟩
    | some behind =>
      rw [hline] at h
      cases h
      obtain ⟨hsuffix, hlt⟩ := lineEnd?_suffix hline
      exact ⟨hsuffix.trans ⟨['\r', '\n'], rfl⟩, by
        simp only [Option.getD_some, List.length_cons]
        omega⟩
  · obtain ⟨hsuffix, hlt⟩ := lineEnd?_suffix h
    exact ⟨hsuffix.trans (List.suffix_cons _ _), by simp only [List.length_cons]; omega⟩
  · obtain ⟨hsuffix, hlt⟩ := lineEnd?_suffix h
    exact ⟨hsuffix.trans (List.suffix_cons _ _), by simp only [List.length_cons]; omega⟩
  · cases h

theorem behindDouble?_suffix {text rest : List Char} (h : behindDouble? text = some rest) :
    rest <:+ text ∧ rest.length < text.length := by
  induction text with
  | nil => cases h
  | cons c cs ih =>
    unfold behindDouble? at h
    split at h
    · rename_i heq
      cases h
      exact doubleEnd?_suffix heq
    · obtain ⟨hsuffix, hlt⟩ := ih h
      exact ⟨hsuffix.trans (List.suffix_cons c cs), by rw [List.length_cons]; omega⟩

/-- `text.split(..).at(-1)`. -/
def lastFrame (text : List Char) : List Char :=
  match _h : behindDouble? text with
  | none => text
  | some rest => lastFrame rest
termination_by text.length
decreasing_by exact (behindDouble?_suffix _h).2

/-- `Buffer.byteLength(text, "utf8")`. -/
def byteLength (text : List Char) : Nat := (text.map Char.utf8Size).sum

/-! ## The stream -/

section Client

variable {σ τ : Type}

/-- The end of the body. -/
def finish (C : Client σ τ) (state : (σ × τ) × Loop) : Ending :=
  if C.flushes state.1.1 then .eof state.2.retryHint else .failed .invalidUtf8

/-- What the gate holds back behind a chunk: the text behind the last double line end. -/
def gated (C : Client σ τ) (state : (σ × τ) × Loop) (pending : List Char) (chunk : List UInt8) :
    List Char := lastFrame (pending ++ (C.decoder.feed state.1.1 chunk).1)

def subscribeFrom (C : Client σ τ) (state : (σ × τ) × Loop) (pending : List Char) :
    List (List UInt8) → List Control × Ending
  | [] => ([], finish C state)
  | chunk :: chunks =>
    let pending := gated C state pending chunk
    if byteLength pending > C.maxBufferBytes then ([], .bufferTooLarge)
    else
      let fed := (pipeline C).feed state chunk
      match fed.2 with
      | .error stop => (fed.1, .failed stop)
      | .ok next =>
        let rest := subscribeFrom C next pending chunks
        (fed.1 ++ rest.1, rest.2)

/-- The controls that `onControl` is called with, and how the call ends. -/
def subscribe (C : Client σ τ) (chunks : List (List UInt8)) : List Control × Ending :=
  subscribeFrom C (pipeline C).start [] chunks

/-- The chunks before the first that leaves more than `maxBufferBytes` open, unless the loop has
ended by then. -/
def rejectedFrom (C : Client σ τ) (state : (σ × τ) × Loop) (pending : List Char) :
    List (List UInt8) → Option (List (List UInt8))
  | [] => none
  | chunk :: chunks =>
    if byteLength (gated C state pending chunk) > C.maxBufferBytes then some []
    else
      match ((pipeline C).feed state chunk).2 with
      | .error _ => none
      | .ok next => (rejectedFrom C next (gated C state pending chunk) chunks).map (chunk :: ·)

def rejectedAfter (C : Client σ τ) (chunks : List (List UInt8)) : Option (List (List UInt8)) :=
  rejectedFrom C (pipeline C).start [] chunks

/-- What a stream means without the gate. -/
def ungated (C : Client σ τ) (state : (σ × τ) × Loop) (stream : List UInt8) :
    List Control × Ending :=
  (((pipeline C).feed state stream).1,
    match ((pipeline C).feed state stream).2 with
    | .error stop => .failed stop
    | .ok next => finish C next)

variable {C : Client σ τ}

theorem pipeline_lawful (hdecoder : C.decoder.Lawful) (hparser : C.parser.Lawful) :
    (pipeline C).Lawful :=
  Stage.comp_lawful (Stage.comp_lawful (Stage.failWith_lawful _ hdecoder)
    (Stage.failWith_lawful _ hparser)) (Stage.ofStep_lawful _ _)

/-- The controls of a chunk come before those of the rest. -/
theorem ungated_append (hlawful : (pipeline C).Lawful) (state : (σ × τ) × Loop)
    (chunk rest : List UInt8) : ungated C state (chunk ++ rest)
      = match ((pipeline C).feed state chunk).2 with
        | .error stop => (((pipeline C).feed state chunk).1, .failed stop)
        | .ok next => (((pipeline C).feed state chunk).1 ++ (ungated C next rest).1,
            (ungated C next rest).2) := by
  unfold ungated
  rw [hlawful.feed_append]
  cases ((pipeline C).feed state chunk).2 with
  | error stop => rfl
  | ok next => rfl

/-- The result: that of the whole stream, or the controls before the rejection. -/
theorem subscribeFrom_eq (hlawful : (pipeline C).Lawful) (state : (σ × τ) × Loop)
    (pending : List Char) (chunks : List (List UInt8)) :
    subscribeFrom C state pending chunks
      = match rejectedFrom C state pending chunks with
        | none => ungated C state chunks.flatten
        | some before => (((pipeline C).feed state before.flatten).1, .bufferTooLarge) := by
  induction chunks generalizing state pending with
  | nil =>
    unfold subscribeFrom rejectedFrom ungated
    dsimp only
    rw [List.flatten_nil, hlawful.feed_nil]
  | cons chunk chunks ih =>
    unfold subscribeFrom rejectedFrom
    dsimp only
    by_cases hover : byteLength (gated C state pending chunk) > C.maxBufferBytes
    · rw [if_pos hover, if_pos hover]
      dsimp only
      rw [List.flatten_nil, hlawful.feed_nil]
    · rw [if_neg hover, if_neg hover, List.flatten_cons]
      cases hfed : ((pipeline C).feed state chunk).2 with
      | error stop =>
        dsimp only
        rw [ungated_append hlawful, hfed]
      | ok next =>
        dsimp only
        rw [ih]
        cases hrejected : rejectedFrom C next (gated C state pending chunk) chunks with
        | none =>
          rw [Option.map_none]
          dsimp only
          rw [ungated_append hlawful, hfed]
        | some before =>
          rw [Option.map_some]
          dsimp only
          rw [List.flatten_cons, hlawful.feed_append, hfed, andThen_ok]

theorem ungated_not_rejected (state : (σ × τ) × Loop) (stream : List UInt8) :
    (ungated C state stream).2 ≠ .bufferTooLarge := by
  unfold ungated finish
  dsimp only
  split
  · intro h
    cases h
  · split
    · intro h
      cases h
    · intro h
      cases h

/-- The controls that the chunks hold. -/
def controlsOf (C : Client σ τ) (chunks : List (List UInt8)) : List Control :=
  ((pipeline C).feed (pipeline C).start chunks.flatten).1

/-- Neither of two cuttings leaves too much open, or both do, behind the same controls. -/
def Alike (C : Client σ τ) (chunks chunks' : List (List UInt8)) : Prop :=
  match rejectedAfter C chunks, rejectedAfter C chunks' with
  | none, none => True
  | some before, some before' => controlsOf C before = controlsOf C before'
  | _, _ => False

end Client

/-! ## Streams on which the cutting does not matter -/

def isLineEnd (c : Char) : Bool := c = '\r' || c = '\n'

/-- No two line ends stand side by side. -/
def Unbroken (text : List Char) : Prop :=
  text.IsChain fun c d => ¬ (isLineEnd c = true ∧ isLineEnd d = true)

theorem isLineEnd_cases {c : Char} (h : isLineEnd c = true) : c = '\r' ∨ c = '\n' := by
  unfold isLineEnd at h
  rcases Bool.or_eq_true_iff.mp h with h | h
  · exact .inl (of_decide_eq_true h)
  · exact .inr (of_decide_eq_true h)

theorem lineEnd?_isSome {c : Char} (cs : List Char) (h : isLineEnd c = true) :
    lineEnd? (c :: cs) ≠ none := by
  intro hnone
  unfold lineEnd? at hnone
  rcases isLineEnd_cases h with rfl | rfl
  · split at hnone
    · cases hnone
    · cases hnone
    · cases hnone
    · rename_i _ hnot _
      exact hnot cs rfl
  · split at hnone
    · cases hnone
    · cases hnone
    · cases hnone
    · rename_i hnot
      exact hnot cs rfl

theorem doubleEnd?_isSome {c d : Char} (rest : List Char) (hc : isLineEnd c = true)
    (hd : isLineEnd d = true) : doubleEnd? (c :: d :: rest) ≠ none := by
  intro hnone
  rcases isLineEnd_cases hc with rfl | rfl
  · rcases isLineEnd_cases hd with rfl | rfl
    · exact lineEnd?_isSome rest hd hnone
    · cases hnone
  · exact lineEnd?_isSome rest hd hnone

theorem doubleEnd?_of_not {c : Char} (cs : List Char) (h : isLineEnd c = false) :
    doubleEnd? (c :: cs) = none := by
  unfold doubleEnd?
  split
  · rename_i heq
    cases heq
    cases h
  · rename_i heq
    cases heq
    cases h
  · rename_i heq
    cases heq
    cases h
  · rfl

/-- The first match is behind what has no line ends. -/
theorem behindDouble?_append {text : List Char} (rest : List Char)
    (h : text.all (fun c => !isLineEnd c) = true) :
    behindDouble? (text ++ rest) = behindDouble? rest := by
  induction text with
  | nil => rfl
  | cons c cs ih =>
    rw [List.all_cons, Bool.and_eq_true] at h
    rw [List.cons_append, behindDouble?, doubleEnd?_of_not _ (by simpa using h.1)]
    exact ih h.2

theorem unbroken_of_behindDouble? {text : List Char} (h : behindDouble? text = none) :
    Unbroken text := by
  induction text with
  | nil => exact List.isChain_nil
  | cons c cs ih =>
    unfold behindDouble? at h
    split at h
    · cases h
    · rename_i hdouble
      cases cs with
      | nil => exact List.isChain_singleton c
      | cons d rest =>
        refine List.isChain_cons_cons.mpr ⟨?_, ih h⟩
        rintro ⟨hc, hd⟩
        exact doubleEnd?_isSome rest hc hd hdouble

theorem lastFrame_of_none {text : List Char} (h : behindDouble? text = none) :
    lastFrame text = text := by
  unfold lastFrame
  split
  · rfl
  · rename_i rest hrest
    rw [h] at hrest
    cases hrest

theorem lastFrame_of_some {text rest : List Char} (h : behindDouble? text = some rest) :
    lastFrame text = lastFrame rest := by
  rw [lastFrame]
  split
  · rename_i hnone
    rw [h] at hnone
    cases hnone
  · rename_i rest' hrest
    rw [h] at hrest
    cases hrest
    rfl

theorem lastFrame_suffix (text : List Char) : lastFrame text <:+ text := by
  induction text using lastFrame.induct with
  | case1 text h =>
    rw [lastFrame_of_none h]
  | case2 text rest h ih =>
    rw [lastFrame_of_some h]
    exact ih.trans (behindDouble?_suffix h).1

theorem lastFrame_unbroken (text : List Char) : Unbroken (lastFrame text) := by
  induction text using lastFrame.induct with
  | case1 text h =>
    rw [lastFrame_of_none h]
    exact unbroken_of_behindDouble? h
  | case2 text rest h ih =>
    rw [lastFrame_of_some h]
    exact ih

section Client

variable {σ τ : Type} {C : Client σ τ}

/-- What has no two line ends side by side fits the buffer. -/
def Narrow (C : Client σ τ) (text : List Char) : Prop :=
  ∀ stretch, stretch <:+: text → Unbroken stretch → byteLength stretch ≤ C.maxBufferBytes

theorem narrow_of_byteLength {text : List Char} (h : byteLength text ≤ C.maxBufferBytes) :
    Narrow C text := by
  rintro stretch ⟨before, behind, rfl⟩ _
  unfold byteLength at h ⊢
  rw [List.map_append, List.map_append, List.sum_append, List.sum_append] at h
  omega

/-- The text of a stream, up to the first byte that is not UTF-8. -/
def decoded (C : Client σ τ) (stream : List UInt8) : List Char :=
  (C.decoder.feed C.decoder.start stream).1

theorem decoder_of_feed {state next : (σ × τ) × Loop} {chunk : List UInt8}
    (h : ((pipeline C).feed state chunk).2 = .ok next) :
    (C.decoder.feed state.1.1 chunk).2 = .ok next.1.1 := by
  unfold pipeline Stage.comp Stage.failWith at h
  dsimp only at h
  cases hdecoder : (C.decoder.feed state.1.1 chunk).2 with
  | error f =>
    rw [hdecoder] at h
    dsimp only [Except.mapError] at h
    split at h
    · cases h
    · cases h
    · rename_i heq
      split at heq
      · cases heq
      · cases heq
      · rename_i hok
        cases hok
  | ok s =>
    rw [hdecoder] at h
    dsimp only [Except.mapError] at h
    split at h
    · cases h
    · cases h
    · rename_i heq
      cases h
      split at heq
      · cases heq
      · cases heq
      · rename_i hok
        cases hok
        cases heq
        rfl

theorem rejectedFrom_of_narrow (hdecoder : C.decoder.Lawful) (state : (σ × τ) × Loop)
    (pending : List Char) (chunks : List (List UInt8))
    (hnarrow : Narrow C (pending ++ (C.decoder.feed state.1.1 chunks.flatten).1)) :
    rejectedFrom C state pending chunks = none := by
  induction chunks generalizing state pending with
  | nil => rfl
  | cons chunk chunks ih =>
    have hprefix : (C.decoder.feed state.1.1 chunk).1
        <+: (C.decoder.feed state.1.1 (chunk :: chunks).flatten).1 := by
      rw [List.flatten_cons, hdecoder.feed_append]
      cases (C.decoder.feed state.1.1 chunk).2 with
      | error f => exact List.prefix_rfl
      | ok s => exact List.prefix_append _ _
    have hgated : gated C state pending chunk <:+ pending ++ (C.decoder.feed state.1.1 chunk).1 :=
      lastFrame_suffix _
    have hfits : ¬ byteLength (gated C state pending chunk) > C.maxBufferBytes := by
      refine Nat.not_lt.mpr (hnarrow _ ?_ (lastFrame_unbroken _))
      exact hgated.isInfix.trans ((List.prefix_append_right_inj _).mpr hprefix).isInfix
    unfold rejectedFrom
    rw [if_neg hfits]
    cases hfed : ((pipeline C).feed state chunk).2 with
    | error stop => rfl
    | ok next =>
      dsimp only
      rw [ih next (gated C state pending chunk), Option.map_none]
      intro stretch hstretch
      refine hnarrow stretch (hstretch.trans ?_)
      rw [List.flatten_cons, hdecoder.feed_append, decoder_of_feed hfed, andThen_ok]
      dsimp only
      obtain ⟨before, hbefore⟩ := hgated
      refine ⟨before, [], ?_⟩
      rw [List.append_nil, ← List.append_assoc, hbefore, List.append_assoc]

/-- A stream means the same for two ways of cutting it exactly where neither leaves more than
`maxBufferBytes` open behind a chunk, or both do behind the same controls; and for all ways where
what has no two line ends side by side fits the buffer. -/
theorem subscribe_eq_iff (hdecoder : C.decoder.Lawful) (hparser : C.parser.Lawful)
    (stream : List UInt8) :
    (∀ chunks chunks' : List (List UInt8), chunks.flatten = stream → chunks'.flatten = stream →
      (subscribe C chunks = subscribe C chunks' ↔ Alike C chunks chunks')) ∧
    (Narrow C (decoded C stream) → ∀ chunks chunks' : List (List UInt8),
      chunks.flatten = stream → chunks'.flatten = stream →
      subscribe C chunks = subscribe C chunks') := by
  have hlawful := pipeline_lawful hdecoder hparser
  constructor
  · intro chunks chunks' hchunks hchunks'
    unfold subscribe Alike rejectedAfter controlsOf
    rw [subscribeFrom_eq hlawful, subscribeFrom_eq hlawful, hchunks, hchunks']
    cases rejectedFrom C (pipeline C).start [] chunks with
    | none =>
      cases rejectedFrom C (pipeline C).start [] chunks' with
      | none => exact ⟨fun _ => trivial, fun _ => rfl⟩
      | some before' =>
        refine ⟨fun h => ?_, fun h => h.elim⟩
        exact ungated_not_rejected _ _ (congrArg Prod.snd h)
    | some before =>
      cases rejectedFrom C (pipeline C).start [] chunks' with
      | none =>
        refine ⟨fun h => ?_, fun h => h.elim⟩
        exact ungated_not_rejected _ _ (congrArg Prod.snd h).symm
      | some before' =>
        exact ⟨fun h => (Prod.mk.inj h).1, fun h => Prod.ext h rfl⟩
  · intro hnarrow chunks chunks' hchunks hchunks'
    have hnone : ∀ cut : List (List UInt8), cut.flatten = stream →
        rejectedFrom C (pipeline C).start [] cut = none := by
      intro cut hcut
      refine rejectedFrom_of_narrow hdecoder _ _ _ ?_
      rw [List.nil_append, hcut]
      exact hnarrow
    unfold subscribe
    rw [subscribeFrom_eq hlawful, subscribeFrom_eq hlawful, hnone chunks hchunks,
      hnone chunks' hchunks', hchunks, hchunks']

end Client

/-! ## Samples -/

/-- Bytes below 128 are characters. -/
def asciiDecoder : Stage Unit UInt8 Char Unit :=
  .ofStep () fun _ byte =>
    if byte < 128 then ([Char.ofNat byte.toNat], .ok ()) else ([], .error ())

theorem asciiDecoder_feed {bytes : List UInt8} (h : bytes.all (· < 128) = true) :
    asciiDecoder.feed () bytes = (bytes.map fun byte => Char.ofNat byte.toNat, .ok ()) := by
  unfold asciiDecoder Stage.ofStep
  dsimp only
  induction bytes with
  | nil => rfl
  | cons byte bytes ih =>
    rw [List.all_cons, Bool.and_eq_true] at h
    rw [Stage.feedSteps, if_pos (of_decide_eq_true h.1), andThen_ok, ih h.2]
    rfl

/-- The lines of an event so far, and the line that is not at its end. -/
structure Lines where
  event : String
  data : String
  line : List Char
  deriving DecidableEq, Repr

/-- Fields `event` and `data` with a space behind the colon; other lines are passed over. -/
def readLine (lines : Lines) : List Item × Except Unit Lines :=
  match lines.line with
  | [] =>
    if lines.data = "" then ([], .ok ⟨"", "", []⟩)
    else ([.message ⟨some lines.event, none, some lines.data⟩], .ok ⟨"", "", []⟩)
  | 'e' :: 'v' :: 'e' :: 'n' :: 't' :: ':' :: ' ' :: value =>
    ([], .ok { lines with event := String.ofList value, line := [] })
  | 'd' :: 'a' :: 't' :: 'a' :: ':' :: ' ' :: value =>
    ([], .ok { lines with data := String.ofList value, line := [] })
  | _ => ([], .ok { lines with line := [] })

def lineParser : Stage Lines Char Item Unit :=
  .ofStep ⟨"", "", []⟩ fun lines c =>
    if c = '\n' then readLine lines else ([], .ok { lines with line := lines.line ++ [c] })

/-- A client with the default limits. -/
def defaultClient : Client Unit Lines where
  decoder := asciiDecoder
  flushes := fun _ => true
  parser := lineParser
  parseJson := fun text =>
    if text = "\x7b\"schema_version\":1\x7d" then some (.obj [("schema_version", .num 1)]) else none
  maxBufferBytes := 128 * 1024
  maxEventBytes := 64 * 1024
  maxEventsPerWindow := 120
  rateWindowMs := 10000
  now := 0

/-- A comment of `n` colons. -/
def comment (n : Nat) : List UInt8 := List.replicate n 58

def colons (n : Nat) : List Char := List.replicate n ':'

theorem colons_plain (n : Nat) : (colons n).all (fun c => !isLineEnd c) = true := by
  unfold colons
  rw [List.all_replicate]
  split
  · rfl
  · decide

theorem byteLength_colons (n : Nat) : byteLength (colons n) = n := by
  unfold byteLength colons
  rw [List.map_replicate, List.sum_replicate, smul_eq_mul]
  exact Nat.mul_one n

theorem decoded_comment (n : Nat) (rest : List UInt8) (h : rest.all (· < 128) = true) :
    (asciiDecoder.feed () (comment n ++ rest)).1
      = colons n ++ rest.map fun byte => Char.ofNat byte.toNat := by
  have hall : (comment n ++ rest).all (· < 128) = true := by
    rw [List.all_append, h, Bool.and_true]
    unfold comment
    rw [List.all_replicate]
    split
    · rfl
    · decide
  have hcolons : (comment n).map (fun byte => Char.ofNat byte.toNat) = colons n := by
    unfold comment colons
    rw [List.map_replicate]
    rfl
  rw [asciiDecoder_feed hall, List.map_append, hcolons]

/-- With the line ends that close it a comment passes in one chunk. Cut before, it must fit. -/
theorem comment_depends_on_cut {n : Nat} (h : defaultClient.maxBufferBytes < n) :
    [comment n ++ [10, 10]].flatten = [comment n, [10, 10]].flatten ∧
    (subscribe defaultClient [comment n ++ [10, 10]]).2 ≠ .bufferTooLarge ∧
    subscribe defaultClient [comment n, [10, 10]] = ([], .bufferTooLarge) := by
  have hclosed : gated defaultClient (pipeline defaultClient).start [] (comment n ++ [10, 10])
      = [] := by
    change lastFrame ((asciiDecoder.feed () (comment n ++ [10, 10])).1) = []
    rw [decoded_comment n [10, 10] (by decide)]
    have hbehind : behindDouble? (colons n ++ ['\n', '\n']) = some [] :=
      behindDouble?_append ['\n', '\n'] (colons_plain n)
    exact (lastFrame_of_some hbehind).trans (lastFrame_of_none rfl)
  have hopen : gated defaultClient (pipeline defaultClient).start [] (comment n) = colons n := by
    change lastFrame ((asciiDecoder.feed () (comment n)).1) = colons n
    have hdecoded := decoded_comment n [] rfl
    rw [List.append_nil, List.map_nil, List.append_nil] at hdecoded
    rw [hdecoded]
    have hnone := behindDouble?_append [] (colons_plain n)
    rw [List.append_nil] at hnone
    exact lastFrame_of_none hnone
  refine ⟨?_, ?_, ?_⟩
  · rw [List.flatten_cons, List.flatten_nil, List.append_nil, List.flatten_cons,
      List.flatten_cons, List.flatten_nil, List.append_nil]
  · have hfits : ¬ byteLength [] > defaultClient.maxBufferBytes := Nat.not_lt_zero _
    unfold subscribe subscribeFrom
    rw [hclosed]
    dsimp only
    rw [if_neg hfits]
    cases ((pipeline defaultClient).feed (pipeline defaultClient).start
        (comment n ++ [10, 10])).2 with
    | error stop =>
      intro hend
      cases hend
    | ok next =>
      unfold subscribeFrom finish
      intro hend
      cases hend
  · have hlong : byteLength (colons n) > defaultClient.maxBufferBytes := by
      rw [byteLength_colons]
      exact h
    unfold subscribe subscribeFrom
    rw [hopen]
    exact if_pos hlong

theorem long_comment_depends_on_cut :
    [comment 131073 ++ [10, 10]].flatten = [comment 131073, [10, 10]].flatten ∧
    (subscribe defaultClient [comment 131073 ++ [10, 10]]).2 ≠ .bufferTooLarge ∧
    subscribe defaultClient [comment 131073, [10, 10]] = ([], .bufferTooLarge) :=
  comment_depends_on_cut (by decide)

/-- `event: connected`, then its data. -/
def connectedFrame : List UInt8 :=
  "event: connected\ndata: \x7b\"schema_version\":1\x7d\n\n".toList.map fun c =>
    UInt8.ofNat c.toNat

theorem connected_in_two_chunks :
    subscribe defaultClient [connectedFrame.take 20, connectedFrame.drop 20]
      = subscribe defaultClient [connectedFrame] := by
  have hnarrow : Narrow defaultClient (decoded defaultClient connectedFrame) :=
    narrow_of_byteLength (by decide +kernel)
  refine (subscribe_eq_iff (Stage.ofStep_lawful _ _) (Stage.ofStep_lawful _ _)
    connectedFrame).2 hnarrow _ _ ?_ ?_
  · decide
  · decide

end Sse
end Network
end Yuance
