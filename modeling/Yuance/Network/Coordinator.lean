import Yuance.Lib.Runs

/-!
# Yuance.Network.Coordinator

The network coordinator of `desktop/src/network/network-coordinator.mjs` as a machine. A step is a
call of `start`, `suspend`, `resume`, `invalidate`, `stop`, `subscribe` or `unsubscribe`, a callback
of the event stream, or the settling of a promise that some `run` awaits, together with the code that
runs up to the next `await`. Promises settle in any order and at any time, so the lengths of the
sleeps (`failures`, `retryHint`) are left out. Observers do not call back into the coordinator.

* `State.runs` holds, for the generation a `run` was started with, where that run stands.
* `State.controller` is the one variable that all runs share.
* An effect is what a step lets the outside see.
-/

namespace Yuance
namespace Network

inductive Status where
  | idle | connecting | online | offline | suspended | reauthorizationRequired
  deriving DecidableEq, Repr

inductive Code where
  | deviceRevoked | familyRevoked | userInactive | serverInstanceMismatch
  | credentialBindingMismatch | invalidControlEvent | invalidUtf8 | invalidStream
  | unauthorized | streamAborted
  | other (name : String)
  deriving DecidableEq, Repr

structure Failure where
  code : Option Code
  securityFailure : Bool
  deriving DecidableEq, Repr

def securityCodes : List Code :=
  [.deviceRevoked, .familyRevoked, .userInactive, .serverInstanceMismatch,
   .credentialBindingMismatch, .invalidControlEvent, .invalidUtf8, .invalidStream]

/-- `SECURITY_CODES.has(error?.code) || error?.securityFailure === true`. -/
def Failure.isSecurity (error : Failure) : Bool :=
  (match error.code with
    | some code => decide (code ∈ securityCodes)
    | none => false) || error.securityFailure

/-- A property of `undefined` was read, or a sleep was aborted. -/
def plainError : Failure := { code := none, securityFailure := false }

/-- What the lease callback returns. -/
inductive Outcome where
  | cancelled
  | accessExpiring (epoch : Nat)
  | ended
  deriving DecidableEq, Repr

inductive Control where
  | connected | topbar | releaseVersion | other
  deriving DecidableEq, Repr

/-- Where a run stands: the `await` it is suspended at. -/
inductive Pc where
  /-- `withAccessLease`, before its callback is called. -/
  | lease
  /-- The race of stream and expiry inside the callback, with the result once it is settled. -/
  | race (epoch : Nat) (result : Option (Except Failure Outcome))
  /-- `withAccessLease`, behind its callback. -/
  | leaving (result : Except Failure Outcome)
  | refreshing
  /-- The probe behind a refresh. -/
  | probingExpiry
  /-- The probe behind the end of a stream. -/
  | probing
  /-- The probe in the `catch` block. -/
  | catchProbe (error : Failure)
  /-- `onReauthorizationRequired`. -/
  | reauth
  | sleeping
  /-- The run has returned or thrown; its `finally` is still to come. -/
  | returned
  | ended

/-- The callback of the lease is still to come or under way. -/
def Pc.inLease : Pc → Bool
  | .lease | .race _ _ => true
  | _ => false

structure State where
  status : Status
  generation : Nat
  running : Option Nat
  controller : Option Nat
  suspended : Bool
  listeners : List Nat
  /-- The `AbortController`s made so far: how many, which run made each, and which are aborted. -/
  nextController : Nat
  owner : Nat → Nat
  aborted : Nat → Bool
  runs : Nat → Option Pc

inductive Effect where
  | publish (status : Status) (listeners : List Nat)
  | snapshot (listener : Nat) (status : Status)
  | fact (epoch : Nat) (value : Control)
  | abort (controller : Nat)
  deriving DecidableEq

def initial : State :=
  { status := .idle, generation := 0, running := none, controller := none, suspended := false,
    listeners := [], nextController := 0, owner := fun _ => 0, aborted := fun _ => false,
    runs := fun _ => none }

namespace State

def setPc (s : State) (r : Nat) (pc : Pc) : State :=
  { s with runs := Function.update s.runs r (some pc) }

def publish (s : State) (next : Status) : State × List Effect :=
  ({ s with status := next }, [.publish next s.listeners])

/-- `controller = new AbortController()` in run `r`. -/
def newController (s : State) (r : Nat) : State :=
  { s with
    controller := some s.nextController
    nextController := s.nextController + 1
    owner := Function.update s.owner s.nextController r
    aborted := Function.update s.aborted s.nextController false }

/-- `controller?.abort()`. -/
def abortController (s : State) : State × List Effect :=
  match s.controller with
  | none => (s, [])
  | some c => ({ s with aborted := Function.update s.aborted c true }, [.abort c])

/-- The common part of `invalidate` and `suspend`. -/
def supersede (s : State) (next : Status) : State × List Effect :=
  let s := { s with generation := s.generation + 1 }
  let (s, aborts) := s.abortController
  let (s, published) := { s with controller := none, running := none }.publish next
  (s, aborts ++ published)

def invalidate (s : State) : State × List Effect := s.supersede .idle

def suspend (s : State) : State × List Effect := { s with suspended := true }.supersede .suspended

def stop (s : State) : State × List Effect :=
  let (s, effects) := s.invalidate
  ({ s with listeners := [] }, effects)

/-- The head of the `while` loop of run `r`, up to the lease. -/
def loopHead (s : State) (r : Nat) : State × List Effect :=
  if r = s.generation ∧ s.suspended = false then
    let (s, published) := (s.newController r).publish .connecting
    (s.setPc r .lease, published)
  else (s.setPc r .returned, [])

def start (s : State) : State × List Effect :=
  match s.running with
  | some _ => (s, [])
  | none =>
    let current := s.generation + 1
    let (s, published) := { s with suspended := false, generation := current }.loopHead current
    ({ s with running := some current }, published)

def resume (s : State) : State × List Effect :=
  if s.suspended = false then (s, []) else { s with suspended := false }.start

/-- Behind the `try` statement: the pause before the next round. -/
def offline (s : State) (r : Nat) : State × List Effect :=
  if r ≠ s.generation then (s.setPc r .returned, [])
  else
    let (s, published) := s.publish .offline
    ((s.newController r).setPc r .sleeping, published)

/-- The `catch` block from the security check on. -/
def afterProbe (s : State) (r : Nat) (error : Failure) : State × List Effect :=
  if error.isSecurity then (s.setPc r .reauth, []) else s.offline r

/-- The `catch` block. Reading `controller.signal` of `undefined` ends the run. -/
def enterCatch (s : State) (r : Nat) (error : Failure) : State × List Effect :=
  if r ≠ s.generation then (s.setPc r .returned, [])
  else match s.controller with
  | none => (s.setPc r .returned, [])
  | some c =>
    if s.aborted c = true ∧ error.code = some .streamAborted then (s.setPc r .returned, [])
    else if error.code = some .unauthorized then (s.setPc r (.catchProbe error), [])
    else s.afterProbe r error

/-- The lease callback is called. -/
def leaseGranted (s : State) (r epoch : Nat) : State :=
  match s.controller with
  | none => s.setPc r (.leaving (.error plainError))
  | some _ => s.setPc r (.race epoch none)

/-- The stream settles; the handler of a failure looks at the shared controller. -/
def streamSettled (s : State) (r epoch : Nat) (result : Except Failure Outcome) : State :=
  let raced : Except Failure Outcome :=
    match result with
    | .ok outcome => .ok outcome
    | .error error =>
      match s.controller with
      | none => .error plainError
      | some c => if s.aborted c = true then .ok .cancelled else .error error
  s.setPc r (.race epoch (some raced))

/-- The settled race resumes the callback, whose `finally` aborts the shared controller. -/
def raceResumed (s : State) (r : Nat) (result : Except Failure Outcome) : State × List Effect :=
  match s.controller with
  | none => (s.setPc r (.leaving (.error plainError)), [])
  | some _ =>
    let (s, aborts) := s.abortController
    (s.setPc r (.leaving result), aborts)

/-- `withAccessLease` settles with the callback's result, or with an error of its own. -/
def leaseSettled (s : State) (r : Nat) (result : Except Failure Outcome)
    (stale : Option Failure) : State × List Effect :=
  match stale, result with
  | some error, _ => s.enterCatch r error
  | none, .error error => s.enterCatch r error
  | none, .ok outcome =>
    if r ≠ s.generation ∨ outcome = .cancelled then (s.setPc r .returned, [])
    else match outcome with
    | .accessExpiring _ => (s.setPc r .refreshing, [])
    | _ => (s.setPc r .probing, [])

def refreshSettled (s : State) (r : Nat) (result : Except Failure Bool) : State × List Effect :=
  match result with
  | .ok true => (s.setPc r .probingExpiry, [])
  | .ok false => (s.setPc r .returned, [])
  | .error error => s.enterCatch r error

/-- `onControl` of a stream of run `r`. -/
def control (s : State) (r epoch : Nat) (value : Control) : State × List Effect :=
  if r ≠ s.generation then (s, [])
  else match value with
  | .connected => s.publish .online
  | .topbar | .releaseVersion => (s, [.fact epoch value])
  | .other => (s, [])

end State

inductive Event where
  | start | suspend | resume | invalidate | stop
  | subscribe (listener : Nat)
  | unsubscribe (listener : Nat)
  | control (r epoch : Nat) (value : Control)
  | leaseGranted (r epoch : Nat)
  | leaseRejected (r : Nat) (error : Failure)
  | streamSettled (r : Nat) (result : Except Failure Outcome)
  | expirySettled (r : Nat) (fired : Bool)
  | raceResumed (r : Nat)
  | leaseSettled (r : Nat) (stale : Option Failure)
  | refreshSettled (r : Nat) (result : Except Failure Bool)
  | probeSettled (r : Nat) (result : Option Failure)
  | reauthSettled (r : Nat)
  | sleepSettled (r : Nat) (fired : Bool)
  | runSettled (r : Nat)

/-- The run whose code an event resumes; none for a call from outside. -/
def Event.actor : Event → Option Nat
  | .control r _ _ | .leaseGranted r _ | .leaseRejected r _ | .streamSettled r _
  | .expirySettled r _ | .raceResumed r | .leaseSettled r _ | .refreshSettled r _
  | .probeSettled r _ | .reauthSettled r | .sleepSettled r _ | .runSettled r => some r
  | _ => none

/-- The code that a settled promise resumes in run `r`, which stands at `pc`. -/
def resumeRun (s : State) (r : Nat) (pc : Pc) (e : Event) : Option (State × List Effect) :=
  match pc, e with
  | .lease, .leaseGranted _ epoch => some (s.leaseGranted r epoch, [])
  | .lease, .leaseRejected _ error => some (s.enterCatch r error)
  | .race epoch none, .streamSettled _ result => some (s.streamSettled r epoch result, [])
  | .race epoch none, .expirySettled _ fired =>
    some (s.setPc r (.race epoch (some
      (if fired then .ok (.accessExpiring epoch) else .error plainError))), [])
  | .race _ (some result), .raceResumed _ => some (s.raceResumed r result)
  | .leaving result, .leaseSettled _ stale => some (s.leaseSettled r result stale)
  | .refreshing, .refreshSettled _ result => some (s.refreshSettled r result)
  | .probingExpiry, .probeSettled _ none => some (s.loopHead r)
  | .probingExpiry, .probeSettled _ (some error) => some (s.enterCatch r error)
  | .probing, .probeSettled _ none => some (s.offline r)
  | .probing, .probeSettled _ (some error) => some (s.enterCatch r error)
  | .catchProbe error, .probeSettled _ none => some (s.afterProbe r error)
  | .catchProbe _, .probeSettled _ (some error) => some (s.afterProbe r error)
  | .reauth, .reauthSettled _ =>
    let (s, published) := s.publish .reauthorizationRequired
    some (s.setPc r .returned, published)
  | .sleeping, .sleepSettled _ true => some (s.loopHead r)
  | .sleeping, .sleepSettled _ false => some (s.setPc r .returned, [])
  | .returned, .runSettled _ =>
    let s := { s with running := if r = s.generation then none else s.running }
    some (s.setPc r .ended, [])
  | _, _ => none

def step (s : State) (e : Event) : Option (State × List Effect) :=
  match e with
  | .start => some s.start
  | .suspend => some s.suspend
  | .resume => some s.resume
  | .invalidate => some s.invalidate
  | .stop => some s.stop
  | .subscribe listener =>
    some ({ s with listeners :=
              if listener ∈ s.listeners then s.listeners else s.listeners ++ [listener] },
      [.snapshot listener s.status])
  | .unsubscribe listener =>
    some ({ s with listeners := s.listeners.filter (· ≠ listener) }, [])
  | .control r epoch value => if (s.runs r).isSome then some (s.control r epoch value) else none
  | e =>
    match e.actor with
    | none => none
    | some r =>
      match s.runs r with
      | none => none
      | some pc => resumeRun s r pc e

end Network
end Yuance
