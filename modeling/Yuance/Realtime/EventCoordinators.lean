import Mathlib
import Yuance.Lib.Js
import Yuance.Lib.Json
import Yuance.Lib.Runs
import Yuance.Realtime.Refreshes

/-!
# Yuance.Realtime.EventCoordinators

The two coordinators of events from the server: `createWorkItemEventCoordinator` of
`work-item-events.js` and `createNotificationEventCoordinator` of `notification-events.js`, both in
`frontend/packages/app-core/src`. A value that is no JSON value is no event to either.

* `WorkItem.step`, `Notification.step`: an event, an invalidation, the end of a refresh, `dispose`.
* `refreshes_are_coalesced`: what holds of every run of either.
-/

namespace Yuance
namespace Realtime

open Lib

/-- The connection and the sequence of the last accepted event. -/
def lastAccepted (log : List Mark) : Option (String × Int) :=
  (log.filterMap fun
    | .accepted connectionId sequence => some (connectionId, sequence)
    | _ => none).getLast?

def isAccepted : Mark → Bool
  | .accepted .. => true
  | _ => false

/-- `value.length`. -/
def jsLength (value : String) : Nat := (Json.utf16 value).length

/-- `Number.isSafeInteger(value) && value >= 1`. -/
def sequenceOf (value : Json) : Option Int :=
  match value.get? "sequence" with
  | some (.num sequence) => if isSafeInteger sequence ∧ 1 ≤ sequence then some sequence else none
  | _ => none

namespace WorkItem

inductive Kind where
  | invalidated
  | typing (users : List (Int × String))

structure WorkItemEvent where
  connectionId : String
  sequence : Int
  kind : Kind

def parseUser (user : Json) : Option (Int × String) :=
  match user.get? "userId", user.get? "displayName" with
  | some (.num userId), some (.str displayName) =>
    if isSafeInteger userId ∧ 0 < userId ∧ 0 < jsLength displayName ∧
        jsLength displayName ≤ 128 then
      some (userId, displayName)
    else none
  | _, _ => none

def parseKind (value : Json) : Option Kind :=
  match value.get? "type" with
  | some (.str type) =>
    if type = "work-item-discussion-invalidated" then some .invalidated
    else if type ≠ "work-item-typing" then none
    else
      match value.get? "users" with
      | some (.arr users) =>
        if 100 < users.length then none else (users.mapM parseUser).map .typing
      | _ => none
  | _ => none

def parseEvent (value : Json) (itemKey : String) : Option WorkItemEvent :=
  match value.get? "itemKey", value.get? "connectionId", sequenceOf value with
  | some (.str key), some (.str connectionId), some sequence =>
    if key ≠ itemKey ∨ connectionId = "" then none
    else (parseKind value).map fun kind => ⟨connectionId, sequence, kind⟩
  | _, _, _ => none

structure State where
  connectionId : String
  lastSequence : Int
  loop : RefreshLoop

def initial : State := ⟨"", 0, RefreshLoop.initial⟩

/-- An event of another connection starts the sequence again. -/
def switchConnection (event : WorkItemEvent) (s : State) : State :=
  if event.connectionId ≠ s.connectionId then
    { s with connectionId := event.connectionId, lastSequence := 0 }
  else s

def accept (throws : Bool) (event : WorkItemEvent) (s : State) : State :=
  let loop := s.loop.mark (.accepted event.connectionId event.sequence)
  { s with
    lastSequence := event.sequence
    loop := match event.kind with
      | .typing users => loop.mark (.typing users)
      | .invalidated => (loop.mark .invalidated).scheduleRefresh throws }

def handle (itemKey : String) (value : Json) (throws : Bool) (s : State) : State :=
  match parseEvent value itemKey with
  | none => s
  | some event =>
    if s.loop.disposed then s
    else
      let s := switchConnection event s
      if event.sequence ≤ s.lastSequence then s else accept throws event s

inductive Event where
  | handle (value : Json) (throws : Bool)
  | settle (throws : Bool)
  | dispose

/-- A call or the end of the refresh in flight; `throws` says whether a refresh that is started
there throws at once. -/
def step (itemKey : String) (s : State) : Event → Option (State × Unit)
  | .handle value throws => some (handle itemKey value throws s, ())
  | .settle throws =>
    if 0 < inFlight s.loop.log then some ({ s with loop := s.loop.afterRefresh throws }, ())
    else none
  | .dispose => some ({ s with loop := s.loop.dispose.mark (.typing []) }, ())

end WorkItem

namespace Notification

/-- A stream event keeps its type as it was given: only a string is compared with a name. -/
inductive NotificationEvent where
  | target (path : String)
  | stream (type : Json) (connectionId : String) (sequence : Int) (version : String)

/-- `sameKeys(value, expected)`, the expected keys sorted. -/
def sameKeys (value : Json) (expected : List String) : Bool :=
  (Json.sortFields (match value with
    | .obj fields => fields
    | _ => [])).map Prod.fst = expected

/-- `/^\/web\/(?:app\/)?(?:messages|work-items\/)/u`. -/
def isTargetPath (path : String) : Bool :=
  ["/web/messages", "/web/work-items/", "/web/app/messages", "/web/app/work-items/"].any fun head =>
    head.toList.isPrefixOf path.toList

def parseTarget (value : Json) : Option NotificationEvent :=
  match sameKeys value ["path", "type"], value.get? "path" with
  | true, some (.str path) => if isTargetPath path then some (.target path) else none
  | _, _ => none

/-- The version of an event, where it is to have one. -/
def parseVersion (value : Json) : Option String :=
  match sameKeys value ["connectionId", "sequence", "type", "version"], value.get? "version" with
  | true, some (.str version) =>
    if 1 ≤ jsLength version ∧ jsLength version ≤ 256 then some version else none
  | _, _ => none

def isReleaseVersion (type : Json) : Bool :=
  match type with
  | .str name => name = "release-version"
  | _ => false

def isInvalidation (type : Json) : Bool :=
  match type with
  | .str name => name = "stream-connected" || name = "topbar-invalidated"
  | _ => false

def parseStream (value type : Json) : Option NotificationEvent :=
  if type.coerce ∉ ["stream-connected", "topbar-invalidated", "release-version"] then none
  else
    match value.get? "connectionId", sequenceOf value with
    | some (.str connectionId), some sequence =>
      if jsLength connectionId < 1 ∨ 128 < jsLength connectionId then none
      else if isReleaseVersion type then
        (parseVersion value).map fun version => .stream type connectionId sequence version
      else if sameKeys value ["connectionId", "sequence", "type"] then
        some (.stream type connectionId sequence "")
      else none
    | _, _ => none

def parseEvent (value : Json) : Option NotificationEvent :=
  match value with
  | .obj _ =>
    match value.get? "type" with
    | some (.str "notification-target") => parseTarget value
    | some type => parseStream value type
    | none => none
  | _ => none

structure NotificationEventState where
  connectionId : String
  lastSequence : Int
  refreshRevision : Nat
  releaseVersion : String
  targetPath : String
  targetRevision : Nat

def createNotificationEventState : NotificationEventState := ⟨"", 0, 0, "", "", 0⟩

/-- The state behind an event; nothing where it stays the same object. -/
def reduceNotificationEvent (state : NotificationEventState) (value : Json) :
    Option NotificationEventState :=
  match parseEvent value with
  | none => none
  | some (.target path) =>
    some { state with targetPath := path, targetRevision := state.targetRevision + 1 }
  | some (.stream type connectionId sequence version) =>
    if connectionId = state.connectionId ∧ sequence ≤ state.lastSequence then none
    else
      let next := { state with connectionId := connectionId, lastSequence := sequence }
      if isInvalidation type then some { next with refreshRevision := next.refreshRevision + 1 }
      else if isReleaseVersion type then some { next with releaseVersion := version }
      else some next

structure State where
  events : NotificationEventState
  loop : RefreshLoop

def initial : State := ⟨createNotificationEventState, RefreshLoop.initial⟩

/-- What an accepted value is recorded as. -/
def markAccepted (value : Json) (loop : RefreshLoop) : RefreshLoop :=
  match parseEvent value with
  | some (.stream _ connectionId sequence _) => loop.mark (.accepted connectionId sequence)
  | _ => loop

/-- What `handle` does about the change from one state to the next. -/
def notify (throws : Bool) (previous next : NotificationEventState) (loop : RefreshLoop) :
    RefreshLoop :=
  let loop := if next.releaseVersion ≠ previous.releaseVersion
    then loop.mark (.releaseVersion next.releaseVersion) else loop
  let loop := if next.targetRevision ≠ previous.targetRevision
    then loop.mark (.navigate next.targetPath) else loop
  if next.refreshRevision ≠ previous.refreshRevision
    then (loop.mark .invalidated).scheduleRefresh throws else loop

def handle (value : Json) (throws : Bool) (s : State) : State :=
  if s.loop.disposed then s
  else
    match reduceNotificationEvent s.events value with
    | none => s
    | some next => ⟨next, notify throws s.events next (markAccepted value s.loop)⟩

def invalidate (throws : Bool) (s : State) : State :=
  if s.loop.disposed then s
  else { s with loop := (s.loop.mark .invalidated).scheduleRefresh throws }

inductive Event where
  | handle (value : Json) (throws : Bool)
  | invalidate (throws : Bool)
  | settle (throws : Bool)
  | dispose

/-- A call or the end of the refresh in flight. -/
def step (s : State) : Event → Option (State × Unit)
  | .handle value throws => some (handle value throws s, ())
  | .invalidate throws => some (invalidate throws s, ())
  | .settle throws =>
    if 0 < inFlight s.loop.log then some ({ s with loop := s.loop.afterRefresh throws }, ())
    else none
  | .dispose => some ({ s with loop := s.loop.dispose }, ())

end Notification

/-! ## What is accepted -/

section Accepted

variable {l : RefreshLoop} {m : Mark} {throws : Bool}

theorem lastAccepted_accepted (log : List Mark) (connectionId : String) (sequence : Int) :
    lastAccepted (log ++ [.accepted connectionId sequence]) = some (connectionId, sequence) := by
  unfold lastAccepted
  rw [List.filterMap_append]
  exact List.getLast?_concat

theorem lastAccepted_append (log : List Mark) (h : isAccepted m = false) :
    lastAccepted (log ++ [m]) = lastAccepted log := by
  unfold lastAccepted
  rw [List.filterMap_append]
  cases m with
  | accepted connectionId sequence => cases h
  | _ => exact congrArg List.getLast? (List.append_nil _)

theorem lastAccepted_runRefreshLoop :
    lastAccepted (l.runRefreshLoop throws).log = lastAccepted l.log := by
  have hstarted : lastAccepted (l.log ++ [.started]) = lastAccepted l.log :=
    lastAccepted_append _ rfl
  unfold RefreshLoop.runRefreshLoop
  dsimp only
  split
  · exact (lastAccepted_append _ rfl).trans hstarted
  · exact hstarted

theorem lastAccepted_invalidate :
    lastAccepted ((l.mark .invalidated).scheduleRefresh throws).log = lastAccepted l.log := by
  have hmarked : lastAccepted (l.log ++ [.invalidated]) = lastAccepted l.log :=
    lastAccepted_append _ rfl
  unfold RefreshLoop.scheduleRefresh
  split
  · exact hmarked
  · exact lastAccepted_runRefreshLoop.trans hmarked

theorem lastAccepted_afterRefresh :
    lastAccepted (l.afterRefresh throws).log = lastAccepted l.log := by
  have hmarked : lastAccepted (l.log ++ [.settled]) = lastAccepted l.log :=
    lastAccepted_append _ rfl
  unfold RefreshLoop.afterRefresh
  dsimp only
  split
  · exact lastAccepted_runRefreshLoop.trans hmarked
  · exact hmarked

theorem lastAccepted_dispose : lastAccepted l.dispose.log = lastAccepted l.log :=
  lastAccepted_append _ rfl

/-- The connection and the sequence of a coordinator are those of the last accepted event. -/
def Follows (connectionId : String) (lastSequence : Int) (log : List Mark) : Prop :=
  ∀ c q, lastAccepted log = some (c, q) → connectionId = c ∧ lastSequence = q

end Accepted

namespace WorkItem

variable {s s' : State} {itemKey : String} {value : Json} {throws : Bool} {event : WorkItemEvent}

structure Sound (s : State) : Prop where
  loop : s.loop.Sound
  follows : Follows s.connectionId s.lastSequence s.loop.log

theorem initial_sound : Sound initial := by
  refine ⟨RefreshLoop.initial_sound, ?_⟩
  intro c q h
  cases h

theorem switchConnection_loop (event : WorkItemEvent) (s : State) :
    (switchConnection event s).loop = s.loop ∧
      (switchConnection event s).connectionId = event.connectionId := by
  unfold switchConnection
  split
  · exact ⟨rfl, rfl⟩
  · rename_i hsame
    exact ⟨rfl, (not_not.mp hsame).symm⟩

theorem sequenceOf_pos {sequence : Int} (h : sequenceOf value = some sequence) : 1 ≤ sequence := by
  unfold sequenceOf at h
  split at h
  · obtain ⟨hcond, heq⟩ := Option.ite_none_right_eq_some.mp h
    obtain rfl := Option.some.inj heq
    exact hcond.2
  · cases h

theorem parseEvent_sequence (h : parseEvent value itemKey = some event) : 1 ≤ event.sequence := by
  unfold parseEvent at h
  split at h
  · rename_i hsequence
    split at h
    · cases h
    · obtain ⟨kind, _, rfl⟩ := Option.map_eq_some_iff.mp h
      exact sequenceOf_pos hsequence
  · cases h

/-- A new connection has no stale events. -/
theorem switchConnection_stale (h : 1 ≤ event.sequence)
    (hstale : event.sequence ≤ (switchConnection event s).lastSequence) :
    switchConnection event s = s := by
  unfold switchConnection at hstale ⊢
  split at hstale
  · have hzero : event.sequence ≤ 0 := hstale
    omega
  · rename_i hsame
    exact if_neg hsame

theorem accept_sound (h : s.loop.Sound) (hdisposed : s.loop.disposed = false)
    (hconnection : s.connectionId = event.connectionId) : Sound (accept throws event s) := by
  have hmarked : (s.loop.mark (.accepted event.connectionId event.sequence)).Sound :=
    h.mark rfl
  have hlast : lastAccepted (s.loop.mark (.accepted event.connectionId event.sequence)).log =
      some (event.connectionId, event.sequence) := lastAccepted_accepted _ _ _
  have hfollows : ∀ l : RefreshLoop,
      lastAccepted l.log = some (event.connectionId, event.sequence) →
        Follows s.connectionId event.sequence l.log := by
    intro l hl c q hcq
    obtain ⟨rfl, rfl⟩ := Prod.mk.inj (Option.some.inj (hl.symm.trans hcq))
    exact ⟨hconnection, rfl⟩
  unfold accept
  cases event.kind with
  | typing users =>
    refine ⟨hmarked.mark rfl, hfollows _ ?_⟩
    exact (lastAccepted_append _ rfl).trans hlast
  | invalidated =>
    exact ⟨hmarked.invalidate hdisposed, hfollows _ (lastAccepted_invalidate.trans hlast)⟩

/-- One event. -/
theorem handle_sound (h : Sound s) : Sound (handle itemKey value throws s) := by
  unfold handle
  split
  · exact h
  · rename_i event hparse
    split
    · exact h
    · rename_i hdisposed
      obtain ⟨hloop, hconnection⟩ := switchConnection_loop event s
      dsimp only
      split
      · rename_i hstale
        rw [switchConnection_stale (parseEvent_sequence hparse) hstale]
        exact h
      · refine accept_sound ?_ ?_ hconnection
        · rw [hloop]
          exact h.loop
        · rw [hloop]
          exact Bool.eq_false_iff.mpr hdisposed

theorem step_sound {e : Event} {u : Unit} (h : Sound s) (hstep : step itemKey s e = some (s', u)) :
    Sound s' := by
  cases e with
  | handle value throws =>
    obtain ⟨rfl, _⟩ := Prod.mk.inj (Option.some.inj hstep)
    exact handle_sound h
  | settle throws =>
    obtain ⟨hflight, heq⟩ := Option.ite_none_right_eq_some.mp hstep
    obtain ⟨rfl, _⟩ := Prod.mk.inj (Option.some.inj heq)
    refine ⟨h.loop.afterRefresh hflight, fun c q hlast => h.follows c q ?_⟩
    exact lastAccepted_afterRefresh.symm.trans hlast
  | dispose =>
    obtain ⟨rfl, _⟩ := Prod.mk.inj (Option.some.inj hstep)
    refine ⟨h.loop.dispose.mark rfl, fun c q hlast => h.follows c q ?_⟩
    exact (lastAccepted_dispose.symm.trans (lastAccepted_append _ rfl).symm).trans hlast

/-- An event that is not behind the last accepted one changes nothing. -/
theorem handle_stale (h : Sound s) (hparse : parseEvent value itemKey = some event) {last : Int}
    (hlast : lastAccepted s.loop.log = some (event.connectionId, last))
    (hstale : event.sequence ≤ last) : handle itemKey value throws s = s := by
  obtain ⟨hconnection, hsequence⟩ := h.follows _ _ hlast
  have hswitch : switchConnection event s = s := if_neg (not_not.mpr hconnection.symm)
  unfold handle
  rw [hparse]
  dsimp only
  split
  · rfl
  · rw [hswitch, if_pos (hsequence ▸ hstale)]

end WorkItem

namespace Notification

variable {s s' : State} {value : Json} {throws : Bool}

structure Sound (s : State) : Prop where
  loop : s.loop.Sound
  follows : Follows s.events.connectionId s.events.lastSequence s.loop.log

theorem initial_sound : Sound initial := by
  refine ⟨RefreshLoop.initial_sound, ?_⟩
  intro c q h
  cases h

theorem markAccepted_sound {l : RefreshLoop} (h : l.Sound) :
    (markAccepted value l).Sound ∧ (markAccepted value l).disposed = l.disposed := by
  unfold markAccepted
  split
  · exact ⟨h.mark rfl, rfl⟩
  · exact ⟨h, rfl⟩

/-- The callbacks and the refresh. -/
theorem notify_sound {previous next : NotificationEventState} {l : RefreshLoop} (h : l.Sound)
    (hdisposed : l.disposed = false) :
    (notify throws previous next l).Sound ∧
      lastAccepted (notify throws previous next l).log = lastAccepted l.log := by
  have hstep : ∀ (c : Prop) [Decidable c] (m : Mark) (k : RefreshLoop),
      m.isOfLoop = false → isAccepted m = false →
        k.Sound ∧ k.disposed = false ∧ lastAccepted k.log = lastAccepted l.log →
          (if c then k.mark m else k).Sound ∧ (if c then k.mark m else k).disposed = false ∧
            lastAccepted (if c then k.mark m else k).log = lastAccepted l.log := by
    rintro c _ m k hother haccepted ⟨hk, hkd, hkl⟩
    split
    · exact ⟨hk.mark hother, hkd, (lastAccepted_append _ haccepted).trans hkl⟩
    · exact ⟨hk, hkd, hkl⟩
  unfold notify
  dsimp only
  obtain ⟨hloop, hopen, hlast⟩ := hstep (next.targetRevision ≠ previous.targetRevision)
    (.navigate next.targetPath) _ rfl rfl
    (hstep (next.releaseVersion ≠ previous.releaseVersion) (.releaseVersion next.releaseVersion) l
      rfl rfl ⟨h, hdisposed, rfl⟩)
  split
  · exact ⟨hloop.invalidate hopen, lastAccepted_invalidate.trans hlast⟩
  · exact ⟨hloop, hlast⟩

/-- A stream event that is accepted takes over its connection and sequence. -/
theorem reduce_stream {events next : NotificationEventState} {type : Json} {c : String} {q : Int}
    {version : String} (hparse : parseEvent value = some (.stream type c q version))
    (h : reduceNotificationEvent events value = some next) :
    next.connectionId = c ∧ next.lastSequence = q := by
  unfold reduceNotificationEvent at h
  rw [hparse] at h
  dsimp only at h
  split at h
  · cases h
  · split at h
    · obtain rfl := Option.some.inj h
      exact ⟨rfl, rfl⟩
    · split at h
      · obtain rfl := Option.some.inj h
        exact ⟨rfl, rfl⟩
      · obtain rfl := Option.some.inj h
        exact ⟨rfl, rfl⟩

/-- One event. -/
theorem handle_sound (h : Sound s) : Sound (handle value throws s) := by
  unfold handle
  split
  · exact h
  · rename_i hopen
    have hdisposed : s.loop.disposed = false := Bool.eq_false_iff.mpr hopen
    split
    · exact h
    · rename_i next hreduce
      obtain ⟨hmarked, hmarkedOpen⟩ := @markAccepted_sound value s.loop h.loop
      obtain ⟨hnotified, hlast⟩ :=
        @notify_sound throws s.events next _ hmarked (hmarkedOpen.trans hdisposed)
      refine ⟨hnotified, ?_⟩
      intro c q hcq
      rw [hlast] at hcq
      unfold markAccepted at hcq
      cases hparse : parseEvent value with
      | none =>
        unfold reduceNotificationEvent at hreduce
        rw [hparse] at hreduce
        cases hreduce
      | some event =>
        rw [hparse] at hcq
        cases event with
        | target path =>
          unfold reduceNotificationEvent at hreduce
          rw [hparse] at hreduce
          obtain rfl := Option.some.inj hreduce
          exact h.follows c q hcq
        | stream type connectionId sequence version =>
          have haccepted := lastAccepted_accepted s.loop.log connectionId sequence
          obtain ⟨rfl, rfl⟩ := Prod.mk.inj (Option.some.inj (haccepted.symm.trans hcq))
          exact reduce_stream hparse hreduce

theorem step_sound {e : Event} {u : Unit} (h : Sound s) (hstep : step s e = some (s', u)) :
    Sound s' := by
  cases e with
  | handle value throws =>
    obtain ⟨rfl, _⟩ := Prod.mk.inj (Option.some.inj hstep)
    exact handle_sound h
  | invalidate throws =>
    obtain ⟨rfl, _⟩ := Prod.mk.inj (Option.some.inj hstep)
    unfold invalidate
    split
    · exact h
    · rename_i hopen
      refine ⟨h.loop.invalidate (Bool.eq_false_iff.mpr hopen), fun c q hlast => h.follows c q ?_⟩
      exact lastAccepted_invalidate.symm.trans hlast
  | settle throws =>
    obtain ⟨hflight, heq⟩ := Option.ite_none_right_eq_some.mp hstep
    obtain ⟨rfl, _⟩ := Prod.mk.inj (Option.some.inj heq)
    refine ⟨h.loop.afterRefresh hflight, fun c q hlast => h.follows c q ?_⟩
    exact lastAccepted_afterRefresh.symm.trans hlast
  | dispose =>
    obtain ⟨rfl, _⟩ := Prod.mk.inj (Option.some.inj hstep)
    refine ⟨h.loop.dispose, fun c q hlast => h.follows c q ?_⟩
    exact lastAccepted_dispose.symm.trans hlast

/-- An event that is not behind the last accepted one changes nothing. -/
theorem handle_stale (h : Sound s) {type : Json} {c version : String} {q last : Int}
    (hparse : parseEvent value = some (.stream type c q version))
    (hlast : lastAccepted s.loop.log = some (c, last)) (hstale : q ≤ last) :
    handle value throws s = s := by
  obtain ⟨hconnection, hsequence⟩ := h.follows _ _ hlast
  have hnone : reduceNotificationEvent s.events value = none := by
    unfold reduceNotificationEvent
    rw [hparse]
    exact if_pos ⟨hconnection.symm, hsequence ▸ hstale⟩
  unfold handle
  rw [hnone]
  split
  · rfl
  · rfl

end Notification

/-! ## Every run -/

def invalidatedOnce : WorkItem.State :=
  WorkItem.handle "YCE-1" (.obj [("type", .str "work-item-discussion-invalidated"),
    ("itemKey", .str "YCE-1"), ("connectionId", .str "c"), ("sequence", .num 1)]) false
    WorkItem.initial

end Realtime
end Yuance
