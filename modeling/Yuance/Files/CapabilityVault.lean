import Yuance.Files.Validation
import Yuance.Lib.Js
import Yuance.Lib.JsMap
import Yuance.Lib.Runs

/-!
# Yuance.Files.CapabilityVault

The vault of `desktop/src/files/file-capability-vault.mjs` as a machine. A step is a call of
`issue`, `describe`, `consume`, `pruneExpired`, `drainCleanup` or `invalidateAll` up to its first
`await`, the settling of a removal, or what runs behind an `await`. Each call comes with what it reads
from the clock, of which nothing is assumed.

* `State.works`: the promises of `scheduleRemove`. `State.drains`: the calls of `drainCleanup`.
* `held`: the snapshots that the vault still answers for.
* `step_held`: a step loses and doubles none of them.
* `capabilities_are_single_use`: where an issued snapshot is, over a whole run.
-/

namespace Yuance
namespace Files
namespace Vault

open Lib

inductive VaultError where
  | type (message : String)
  | capability (code message : String)
  deriving DecidableEq

structure FileSnapshot where
  /-- Which object this is. -/
  id : Nat
  privatePath : String
  filename : String
  contentType : String
  byteSize : Nat
  sha256 : String
  deriving DecidableEq

/-- What is passed as a snapshot. `none` stands for a value of another type, and `sha256` is the
text that the pattern is matched against. -/
structure SnapshotArgument where
  id : Nat
  privatePath : Option String
  filename : Option String
  contentType : Option String
  byteSize : Option Int
  sha256 : String
  hasRemove : Bool

structure Binding where
  profileEpoch : Int
  webContentsId : Int
  frameRoutingId : Int
  purpose : String
  deriving DecidableEq

structure BindingArgument where
  profileEpoch : Option Int
  webContentsId : Option Int
  frameRoutingId : Option Int
  purpose : Option String

def safeInteger (value : Option Int) (e : VaultError) : Except VaultError Int := do
  let value ← okOr value e
  rejectIf (¬ isSafeInteger value) e
  pure value

def validateSnapshot (value : Option SnapshotArgument) : Except VaultError FileSnapshot := do
  let invalid : VaultError := .type "Invalid file snapshot"
  let value ← okOr value invalid
  let privatePath ← okOr value.privatePath invalid
  let filename ← okOr value.filename invalid
  let contentType ← okOr value.contentType invalid
  let byteSize ← safeInteger value.byteSize invalid
  rejectIf (byteSize < 0) invalid
  rejectIf (matchClasses (List.replicate 64 isLowerHex) value.sha256.toList = false) invalid
  rejectIf (value.hasRemove = false) invalid
  pure { id := value.id, privatePath, filename, contentType, byteSize := byteSize.toNat,
         sha256 := value.sha256 }

def validateConsumptionBinding (value : Option BindingArgument) : Except VaultError Binding := do
  let invalid : VaultError := .type "Invalid file capability binding"
  let value ← okOr value invalid
  let profileEpoch ← safeInteger value.profileEpoch invalid
  let webContentsId ← safeInteger value.webContentsId invalid
  let frameRoutingId ← safeInteger value.frameRoutingId invalid
  let purpose ← okOr value.purpose invalid
  pure { profileEpoch, webContentsId, frameRoutingId, purpose }

def validateBinding (value : Option BindingArgument) : Except VaultError Binding := do
  let value ← validateConsumptionBinding value
  rejectIf (value.purpose ≠ "upload") (.type "Invalid file capability binding")
  pure value

def sameBinding (left right : Binding) : Bool :=
  left.profileEpoch == right.profileEpoch && left.webContentsId == right.webContentsId &&
    left.frameRoutingId == right.frameRoutingId && left.purpose == right.purpose

theorem eq_of_sameBinding {left right : Binding} (h : sameBinding left right = true) :
    left = right := by
  cases left
  cases right
  simp_all [sameBinding]

/-- The pattern `yfc_[A-Za-z0-9_-]{32}`, as a whole. -/
def isCapability (capability : String) : Bool :=
  matchClasses ([(· == 'y'), (· == 'f'), (· == 'c'), (· == '_')] ++
    List.replicate 32 fun c => c.isAlphanum || c == '_' || c == '-') capability.toList

structure Limits where
  ttlMs : Int := 5 * 60 * 1000
  maxEntries : Int := 16
  maxTotalBytes : Int := 200 * 1024 * 1024

def assertLimit (value maximum : Int) (name : String) : Except VaultError Unit :=
  rejectIf (¬ isSafeInteger value ∨ value ≤ 0 ∨ value > maximum)
    (.type (name ++ " exceeds the fixed safety limit"))

structure VaultEntry where
  snapshot : FileSnapshot
  binding : Binding
  expiresAt : Int
  deriving DecidableEq

/-- A promise of `scheduleRemove`. -/
inductive Work where
  | removing (snapshot : FileSnapshot)
  /-- `remove` has settled, and `finally` is still to come. -/
  | settled
  | done
  deriving DecidableEq

/-- A call of `drainCleanup`. -/
inductive Drain where
  | waiting (works : List Nat)
  /-- The removals that are tried again, and whether they succeeded. -/
  | retrying (removals : List (FileSnapshot × Option Bool))
  | finished
  deriving DecidableEq

structure State where
  entries : JsMap String VaultEntry
  totalBytes : Int
  works : List Work
  failedCleanup : List FileSnapshot
  drains : List Drain

def initial : State :=
  { entries := .empty, totalBytes := 0, works := [], failedCleanup := [], drains := [] }

def createFileCapabilityVault (limits : Limits) : Except VaultError State := do
  assertLimit limits.ttlMs (5 * 60 * 1000) "ttlMs"
  assertLimit limits.maxEntries 16 "maxEntries"
  assertLimit limits.maxTotalBytes (200 * 1024 * 1024) "maxTotalBytes"
  pure initial

structure IssuedCapability where
  capability : String
  filename : String
  contentType : String
  byteSize : Nat
  deriving DecidableEq

structure Description where
  filename : String
  contentType : String
  byteSize : Nat
  sha256 : String
  deriving DecidableEq

inductive Output where
  | issued (answer : IssuedCapability)
  | described (answer : Description)
  | returned (snapshot : FileSnapshot)
  | thrown (e : VaultError)
  /-- A call of `snapshot.remove()` has succeeded. -/
  | removed (snapshot : FileSnapshot)
  | nothing
  deriving DecidableEq

def invalidCapability : VaultError :=
  .capability "file_capability_invalid" "File capability is invalid"

namespace State

def scheduleRemove (s : State) (snapshot : FileSnapshot) : State :=
  { s with works := s.works ++ [.removing snapshot] }

/-- The entry leaves the map and its bytes are free again. -/
def deleteEntry (s : State) (capability : String) (entry : VaultEntry) : State :=
  { s with
    entries := s.entries.delete capability
    totalBytes := s.totalBytes - entry.snapshot.byteSize }

/-- `capability` is `none` where it is no string. -/
def take (s : State) (capability : Option String) : State × Option VaultEntry :=
  match capability with
  | none => (s, none)
  | some c =>
    if isCapability c = false then (s, none)
    else match s.entries.get c with
    | none => (s, none)
    | some entry => (s.deleteEntry c entry, some entry)

/-- The loop of `pruneExpired` from the `i`-th entry on; `now` gives the readings of the clock. -/
def pruneFrom (now : Nat → Int) (s : State) : Nat → List (String × VaultEntry) → State
  | _, [] => s
  | i, (capability, entry) :: rest =>
    if entry.expiresAt ≤ now i then
      pruneFrom now ((s.deleteEntry capability entry).scheduleRemove entry.snapshot) (i + 1) rest
    else pruneFrom now s (i + 1) rest

def pruneExpired (s : State) (now : Nat → Int) : State := s.pruneFrom now 0 s.entries.toList

def issue (limits : Limits) (s : State) (snapshot : Option SnapshotArgument)
    (binding : Option BindingArgument) (prunedAt : Nat → Int) (entropy : Option Bytes)
    (issuedAt : Int) : State × Output :=
  match validateSnapshot snapshot, validateBinding binding with
  | .error e, _ => (s, .thrown e)
  | .ok _, .error e => (s, .thrown e)
  | .ok snapshot, .ok binding =>
    let s := s.pruneExpired prunedAt
    if limits.maxEntries ≤ s.entries.size ∨ s.totalBytes + snapshot.byteSize > limits.maxTotalBytes
    then (s, .thrown (.capability "file_capability_quota" "File capability quota exceeded"))
    else match entropy.filter fun bytes => bytes.length = 24 with
    | none => (s, .thrown (.type "randomBytes must return 24 bytes"))
    | some bytes =>
      let capability := "yfc_" ++ Base64.encode Base64.urlSafeNoPad bytes
      if h : s.entries.get capability = none then
        ({ s with
            entries := s.entries.append capability
              { snapshot, binding, expiresAt := issuedAt + limits.ttlMs } h
            totalBytes := s.totalBytes + snapshot.byteSize },
          .issued { capability, filename := snapshot.filename, contentType := snapshot.contentType,
                    byteSize := snapshot.byteSize })
      else (s, .thrown (.capability "file_capability_quota" "Capability collision"))

def consume (s : State) (capability : Option String) (binding : Option BindingArgument)
    (now : Int) : State × Output :=
  match validateConsumptionBinding binding with
  | .error e => (s, .thrown e)
  | .ok binding =>
    match s.take capability with
    | (s, none) => (s, .thrown invalidCapability)
    | (s, some entry) =>
      if entry.expiresAt ≤ now ∨ sameBinding entry.binding binding = false then
        (s.scheduleRemove entry.snapshot, .thrown invalidCapability)
      else (s, .returned entry.snapshot)

/-- `describe` takes out what it does not describe. -/
def burn (s : State) (capability : Option String) : State × Output :=
  match s.take capability with
  | (s, none) => (s, .thrown invalidCapability)
  | (s, some removed) => (s.scheduleRemove removed.snapshot, .thrown invalidCapability)

def describe (s : State) (capability : Option String) (binding : Option BindingArgument)
    (now : Int) : State × Output :=
  match validateConsumptionBinding binding with
  | .error e => (s, .thrown e)
  | .ok binding =>
    match capability.bind s.entries.get with
    | none => s.burn capability
    | some entry =>
      if entry.expiresAt ≤ now ∨ sameBinding entry.binding binding = false then s.burn capability
      else (s, .described { filename := entry.snapshot.filename,
                            contentType := entry.snapshot.contentType,
                            byteSize := entry.snapshot.byteSize, sha256 := entry.snapshot.sha256 })

/-- The places in `works` of the promises that are in `cleanup`. -/
def cleanup (s : State) : List Nat :=
  (List.range s.works.length).filter fun i => s.works[i]? ≠ some .done

/-- `drainCleanup` up to its first `await`. -/
def drainCleanup (s : State) : State := { s with drains := s.drains ++ [.waiting s.cleanup] }

def invalidateAll (s : State) : State :=
  let s := s.entries.values.foldl (fun s entry => s.scheduleRemove entry.snapshot) s
  { s with entries := .empty, totalBytes := 0 }.drainCleanup

/-- `snapshot.remove()` of a scheduled removal settles. -/
def workSettled (s : State) (i : Nat) (succeeded : Bool) : Option (State × Output) :=
  match s.works[i]? with
  | some (.removing snapshot) =>
    let s := { s with works := s.works.set i .settled }
    if succeeded then some (s, .removed snapshot)
    else some ({ s with failedCleanup := setAdd s.failedCleanup snapshot }, .nothing)
  | _ => none

/-- `cleanup.delete(work)`. -/
def workDone (s : State) (i : Nat) : Option (State × Output) :=
  match s.works[i]? with
  | some .settled => some ({ s with works := s.works.set i .done }, .nothing)
  | _ => none

/-- Every promise that the drain awaits has settled; it goes on up to its second `await`. -/
def drainResumed (s : State) (d : Nat) : Option (State × Output) :=
  match s.drains[d]? with
  | some (.waiting works) =>
    if ∀ i ∈ works, s.works[i]? = some .done then
      some ({ s with
        drains := s.drains.set d (.retrying (s.failedCleanup.map fun snapshot => (snapshot, none)))
        failedCleanup := [] }, .nothing)
    else none
  | _ => none

/-- `snapshot.remove()` of a removal that is tried again settles. -/
def retrySettled (s : State) (d i : Nat) (succeeded : Bool) : Option (State × Output) :=
  match s.drains[d]? with
  | some (.retrying removals) =>
    match removals[i]? with
    | some (snapshot, none) =>
      let s := { s with
        drains := s.drains.set d (.retrying (removals.set i (snapshot, some succeeded))) }
      some (s, if succeeded then .removed snapshot else .nothing)
    | _ => none
  | _ => none

/-- Every removal that is tried again has settled. -/
def drainFinished (s : State) (d : Nat) : Option (State × Output) :=
  match s.drains[d]? with
  | some (.retrying removals) =>
    if ∀ r ∈ removals, r.2 ≠ none then
      let failed := (removals.filter fun r => r.2 = some false).map Prod.fst
      let s := { s with
        drains := s.drains.set d .finished
        failedCleanup := failed.foldl setAdd s.failedCleanup }
      some (s, if s.failedCleanup ≠ [] then
          .thrown (.capability "file_snapshot_cleanup_failed" "File snapshot cleanup failed")
        else .nothing)
    else none
  | _ => none

end State

inductive Event where
  | issue (snapshot : Option SnapshotArgument) (binding : Option BindingArgument)
      (prunedAt : Nat → Int) (entropy : Option Bytes) (issuedAt : Int)
  | describe (capability : Option String) (binding : Option BindingArgument) (now : Int)
  | consume (capability : Option String) (binding : Option BindingArgument) (now : Int)
  | pruneExpired (now : Nat → Int)
  | drainCleanup
  | invalidateAll
  | workSettled (i : Nat) (succeeded : Bool)
  | workDone (i : Nat)
  | drainResumed (d : Nat)
  | retrySettled (d i : Nat) (succeeded : Bool)
  | drainFinished (d : Nat)

def step (limits : Limits) (s : State) : Event → Option (State × Output)
  | .issue snapshot binding prunedAt entropy issuedAt =>
    some (s.issue limits snapshot binding prunedAt entropy issuedAt)
  | .describe capability binding now => some (s.describe capability binding now)
  | .consume capability binding now => some (s.consume capability binding now)
  | .pruneExpired now => some (s.pruneExpired now, .nothing)
  | .drainCleanup => some (s.drainCleanup, .nothing)
  | .invalidateAll => some (s.invalidateAll, .nothing)
  | .workSettled i succeeded => s.workSettled i succeeded
  | .workDone i => s.workDone i
  | .drainResumed d => s.drainResumed d
  | .retrySettled d i succeeded => s.retrySettled d i succeeded
  | .drainFinished d => s.drainFinished d

/-! ## Where a snapshot is -/

def Work.pending : Work → List FileSnapshot
  | .removing snapshot => [snapshot]
  | .settled => []
  | .done => []

def retryPending (r : FileSnapshot × Option Bool) : List FileSnapshot :=
  if r.2 = some true then [] else [r.1]

def Drain.pending : Drain → List FileSnapshot
  | .waiting _ => []
  | .retrying removals => removals.flatMap retryPending
  | .finished => []

namespace State

def live (s : State) : List FileSnapshot := s.entries.values.map VaultEntry.snapshot

/-- A removal is under way, or has failed and is to be tried again. -/
def scheduled (s : State) : List FileSnapshot :=
  s.works.flatMap Work.pending ++ s.failedCleanup ++ s.drains.flatMap Drain.pending

def held (s : State) : List FileSnapshot := s.live ++ s.scheduled

end State

/-- The snapshot that a step puts into the vault. -/
def entered : Event → Output → List FileSnapshot
  | .issue snapshot _ _ _ _, .issued _ => (validateSnapshot snapshot).toOption.toList
  | _, _ => []

/-- The snapshot that a step hands out or removes. -/
def Output.left : Output → List FileSnapshot
  | .returned snapshot => [snapshot]
  | .removed snapshot => [snapshot]
  | _ => []

/-- The bytes and the entries are counted, and within the limits. -/
structure Sound (limits : Limits) (s : State) : Prop where
  total : s.totalBytes = (s.live.map fun x => (x.byteSize : Int)).sum
  entries_le : (s.entries.size : Int) ≤ limits.maxEntries
  total_le : s.totalBytes ≤ limits.maxTotalBytes

section Evicts

variable {limits : Limits} {s t u : State} {capability : String} {entry : VaultEntry}

theorem count_scheduled (s : State) (x : FileSnapshot) :
    s.scheduled.count x = (s.works.flatMap Work.pending).count x + s.failedCleanup.count x +
      (s.drains.flatMap Drain.pending).count x := by
  unfold State.scheduled
  rw [List.count_append, List.count_append]

theorem count_held (s : State) (x : FileSnapshot) :
    s.held.count x = s.live.count x + s.scheduled.count x := List.count_append

/-- Some entries are gone from the map, and their snapshots are scheduled for removal. -/
structure Evicts (s t : State) : Prop where
  held : ∀ x, t.held.count x = s.held.count x
  scheduled : ∀ x, s.scheduled.count x ≤ t.scheduled.count x
  sound : ∀ {limits : Limits}, Sound limits s → Sound limits t
  entries : ∀ k e, t.entries.get k = some e → s.entries.get k = some e

theorem Evicts.refl (s : State) : Evicts s s :=
  ⟨fun _ => rfl, fun _ => Nat.le_refl _, fun h => h, fun _ _ h => h⟩

theorem Evicts.trans (h : Evicts s t) (h' : Evicts t u) : Evicts s u where
  held x := (h'.held x).trans (h.held x)
  scheduled x := (h.scheduled x).trans (h'.scheduled x)
  sound hs := h'.sound (h.sound hs)
  entries k e he := h.entries k e (h'.entries k e he)

theorem scheduled_scheduleRemove (s : State) (x y : FileSnapshot) :
    (s.scheduleRemove x).scheduled.count y = s.scheduled.count y + [x].count y := by
  rw [count_scheduled, count_scheduled]
  unfold State.scheduleRemove
  rw [List.flatMap_append, List.count_append]
  show _ + (List.flatMap Work.pending [Work.removing x]).count y + _ + _ = _
  simp only [List.flatMap_singleton, Work.pending]
  omega

theorem live_deleteEntry (h : s.entries.get capability = some entry) :
    s.live.Perm (entry.snapshot :: (s.deleteEntry capability entry).live) :=
  (JsMap.perm_values_delete h).map VaultEntry.snapshot

theorem Sound.deleteEntry (hs : Sound limits s) (h : s.entries.get capability = some entry) :
    Sound limits (s.deleteEntry capability entry) := by
  have hsum := ((live_deleteEntry h).map fun x => (x.byteSize : Int)).sum_eq
  have hsize := (JsMap.perm_delete h).length_eq
  have htotal := hs.total
  have hentries := hs.entries_le
  have hmax := hs.total_le
  rw [List.map_cons, List.sum_cons] at hsum
  rw [List.length_cons] at hsize
  have htotal' : (s.deleteEntry capability entry).totalBytes =
      s.totalBytes - entry.snapshot.byteSize := rfl
  refine ⟨?_, ?_, ?_⟩
  · omega
  · show ((s.entries.delete capability).toList.length : Int) ≤ _
    unfold JsMap.size at hentries
    omega
  · omega

theorem evicts_entry (h : s.entries.get capability = some entry) :
    Evicts s ((s.deleteEntry capability entry).scheduleRemove entry.snapshot) where
  held x := by
    have hlive := (live_deleteEntry h).count_eq x
    have hscheduled := scheduled_scheduleRemove (s.deleteEntry capability entry) entry.snapshot x
    rw [count_held, count_held, hscheduled]
    rw [← List.singleton_append, List.count_append] at hlive
    show (s.deleteEntry capability entry).live.count x + (s.scheduled.count x + _) = _
    omega
  scheduled x := by
    rw [scheduled_scheduleRemove]
    exact Nat.le_add_right _ _
  sound hs := by
    have hdeleted := hs.deleteEntry h
    exact ⟨hdeleted.total, hdeleted.entries_le, hdeleted.total_le⟩
  entries k e he := by
    have hdeleted : (s.entries.delete capability).get k = some e := he
    rw [JsMap.get_eq_some] at hdeleted ⊢
    exact (List.mem_filter.mp hdeleted).1

/-- Induction on the entries that the loop has still to look at. -/
theorem evicts_pruneFrom (now : Nat → Int) {rest : List (String × VaultEntry)} {i : Nat}
    (hnodup : (rest.map Prod.fst).Nodup) (hrest : ∀ p ∈ rest, s.entries.get p.1 = some p.2) :
    Evicts s (s.pruneFrom now i rest) := by
  induction rest generalizing s i with
  | nil => exact .refl s
  | cons p rest ih =>
    obtain ⟨k, e⟩ := p
    rw [List.map_cons, List.nodup_cons] at hnodup
    have htail : ∀ q ∈ rest, s.entries.get q.1 = some q.2 := fun q hq =>
      hrest q (List.mem_cons_of_mem _ hq)
    unfold State.pruneFrom
    by_cases hexpired : e.expiresAt ≤ now i
    · rw [if_pos hexpired]
      refine (evicts_entry (hrest (k, e) List.mem_cons_self)).trans (ih hnodup.2 ?_)
      intro q hq
      have hne : q.1 ≠ k := fun heq => hnodup.1 (List.mem_map.mpr ⟨q, hq, heq⟩)
      exact (JsMap.get_delete_of_ne hne).trans (htail q hq)
    · rw [if_neg hexpired]
      exact ih hnodup.2 htail

theorem evicts_pruneExpired (s : State) (now : Nat → Int) : Evicts s (s.pruneExpired now) :=
  evicts_pruneFrom now s.entries.nodup fun _ hp => JsMap.get_eq_some.mpr hp

theorem evicts_drainCleanup (s : State) : Evicts s s.drainCleanup := by
  have hscheduled : ∀ x, s.drainCleanup.scheduled.count x = s.scheduled.count x := by
    intro x
    rw [count_scheduled, count_scheduled]
    unfold State.drainCleanup
    rw [List.flatMap_append, List.count_append]
    rfl
  refine ⟨?_, ?_, fun h => ⟨h.total, h.entries_le, h.total_le⟩, fun k e h => h⟩
  · intro x
    rw [count_held, count_held, hscheduled]
    rfl
  · intro x
    rw [hscheduled]

theorem foldl_scheduleRemove (l : List VaultEntry) (s : State) :
    l.foldl (fun s entry => s.scheduleRemove entry.snapshot) s =
      { s with works := s.works ++ l.map fun entry => .removing entry.snapshot } := by
  induction l generalizing s with
  | nil =>
    rw [List.map_nil, List.append_nil]
    rfl
  | cons entry l ih =>
    rw [List.foldl_cons, ih]
    unfold State.scheduleRemove
    rw [List.map_cons, List.append_assoc]
    rfl

theorem flatMap_removing (l : List VaultEntry) :
    (l.map fun entry => Work.removing entry.snapshot).flatMap Work.pending =
      l.map VaultEntry.snapshot := by
  induction l with
  | nil => rfl
  | cons entry l ih =>
    rw [List.map_cons, List.flatMap_cons, ih]
    rfl

/-- The loop of `invalidateAll`, and the map behind it. -/
theorem evicts_cleared (s : State) :
    Evicts s { s.entries.values.foldl (fun s entry => s.scheduleRemove entry.snapshot) s with
      entries := .empty, totalBytes := 0 } := by
  rw [foldl_scheduleRemove]
  have hscheduled : ∀ x, (State.scheduled { s with
      entries := .empty, totalBytes := 0
      works := s.works ++ s.entries.values.map fun entry => .removing entry.snapshot }).count x =
        s.live.count x + s.scheduled.count x := by
    intro x
    rw [count_scheduled, count_scheduled, List.flatMap_append, List.count_append, flatMap_removing]
    show _ + s.live.count x + s.failedCleanup.count x +
      (s.drains.flatMap Drain.pending).count x = _
    omega
  refine ⟨?_, ?_, ?_, ?_⟩
  · intro x
    rw [count_held, count_held, hscheduled]
    exact Nat.zero_add _
  · intro x
    rw [hscheduled]
    exact Nat.le_add_left _ _
  · intro limits hs
    have hsum : (0 : Int) ≤ (s.live.map fun x => (x.byteSize : Int)).sum := by
      refine List.sum_nonneg ?_
      intro n hn
      obtain ⟨x, _, rfl⟩ := List.mem_map.mp hn
      exact Int.natCast_nonneg _
    have htotal := hs.total
    have hmax := hs.total_le
    have hentries := hs.entries_le
    refine ⟨rfl, ?_, ?_⟩
    · show (0 : Int) ≤ _
      omega
    · show (0 : Int) ≤ _
      omega
  · intro k e h
    exact absurd (JsMap.get_eq_some.mp h) List.not_mem_nil

theorem evicts_invalidateAll (s : State) : Evicts s s.invalidateAll :=
  (evicts_cleared s).trans (evicts_drainCleanup _)

theorem take_cases (s : State) (capability : Option String) :
    s.take capability = (s, none) ∨
      ∃ c entry, capability = some c ∧ s.entries.get c = some entry ∧
        s.take capability = (s.deleteEntry c entry, some entry) := by
  unfold State.take
  cases capability with
  | none => exact .inl rfl
  | some c =>
    dsimp only
    split
    · exact .inl rfl
    · cases hget : s.entries.get c with
      | none => exact .inl rfl
      | some entry => exact .inr ⟨c, entry, rfl, hget, rfl⟩

theorem burn_cases (s : State) (capability : Option String) :
    Evicts s (s.burn capability).1 ∧ (s.burn capability).2 = .thrown invalidCapability := by
  unfold State.burn
  rcases take_cases s capability with h | ⟨c, entry, _, hget, h⟩
  · rw [h]
    exact ⟨.refl s, rfl⟩
  · rw [h]
    exact ⟨evicts_entry hget, rfl⟩

end Evicts

/-- What a step does: it evicts entries, issues one, hands one out, or moves removals on. -/
inductive Move (limits : Limits) (s : State) : Event → State → Output → Prop where
  | evicts {e : Event} {t : State} {o : Output} (h : Evicts s t) (hin : entered e o = [])
      (hout : o.left = []) : Move limits s e t o
  | issues {snapshot : Option SnapshotArgument} {binding : Option BindingArgument}
      {prunedAt : Nat → Int} {entropy : Option Bytes} {issuedAt : Int} {p : State}
      {x : FileSnapshot} {b : Binding} {capability : String} (h : Evicts s p)
      (hsnapshot : validateSnapshot snapshot = .ok x) (hbinding : validateBinding binding = .ok b)
      (hquota : ¬ (limits.maxEntries ≤ p.entries.size ∨
        p.totalBytes + x.byteSize > limits.maxTotalBytes))
      (hnew : p.entries.get capability = none) :
      Move limits s (.issue snapshot binding prunedAt entropy issuedAt)
        { p with
          entries := p.entries.append capability ⟨x, b, issuedAt + limits.ttlMs⟩ hnew
          totalBytes := p.totalBytes + x.byteSize }
        (.issued { capability, filename := x.filename, contentType := x.contentType,
                   byteSize := x.byteSize })
  | returns {capability : String} {binding : Option BindingArgument} {now : Int}
      {entry : VaultEntry} (hget : s.entries.get capability = some entry)
      (hbinding : validateConsumptionBinding binding = .ok entry.binding)
      (hnow : now < entry.expiresAt) :
      Move limits s (.consume (some capability) binding now) (s.deleteEntry capability entry)
        (.returned entry.snapshot)
  | removes {e : Event} {t : State} {o : Output} (hentries : t.entries = s.entries)
      (htotal : t.totalBytes = s.totalBytes) (hin : entered e o = [])
      (hscheduled : ∀ x, t.scheduled.count x + o.left.count x = s.scheduled.count x)
      (hreturned : ∀ x, o ≠ .returned x) : Move limits s e t o

section Steps

variable {limits : Limits} {s t : State} {o : Output}

theorem issue_move (snapshot : Option SnapshotArgument) (binding : Option BindingArgument)
    (prunedAt : Nat → Int) (entropy : Option Bytes) (issuedAt : Int) :
    Move limits s (.issue snapshot binding prunedAt entropy issuedAt)
      (s.issue limits snapshot binding prunedAt entropy issuedAt).1
      (s.issue limits snapshot binding prunedAt entropy issuedAt).2 := by
  have hpruned := evicts_pruneExpired s prunedAt
  unfold State.issue
  split
  · exact .evicts (.refl s) rfl rfl
  · exact .evicts (.refl s) rfl rfl
  · rename_i x b hx hb
    dsimp only
    split
    · exact .evicts hpruned rfl rfl
    · rename_i hquota
      split
      · exact .evicts hpruned rfl rfl
      · split
        · rename_i hnew
          exact .issues hpruned hx hb hquota hnew
        · exact .evicts hpruned rfl rfl

theorem consume_move (capability : Option String) (binding : Option BindingArgument) (now : Int) :
    Move limits s (.consume capability binding now) (s.consume capability binding now).1
      (s.consume capability binding now).2 := by
  unfold State.consume
  split
  · exact .evicts (.refl s) rfl rfl
  · rename_i b hb
    rcases take_cases s capability with h | ⟨c, entry, rfl, hget, h⟩
    · rw [h]
      exact .evicts (.refl s) rfl rfl
    · rw [h]
      dsimp only
      split
      · exact .evicts (evicts_entry hget) rfl rfl
      · rename_i hvalid
        rw [not_or, Bool.not_eq_false] at hvalid
        refine .returns hget ?_ (by omega)
        rw [eq_of_sameBinding hvalid.2]
        exact hb

theorem describe_move (capability : Option String) (binding : Option BindingArgument) (now : Int) :
    Move limits s (.describe capability binding now) (s.describe capability binding now).1
      (s.describe capability binding now).2 := by
  have hburn : Move limits s (.describe capability binding now) (s.burn capability).1
      (s.burn capability).2 := by
    obtain ⟨hevicts, hout⟩ := burn_cases s capability
    rw [hout]
    exact .evicts hevicts rfl rfl
  unfold State.describe
  split
  · exact .evicts (.refl s) rfl rfl
  · split
    · exact hburn
    · split
      · exact hburn
      · exact .evicts (.refl s) rfl rfl

/-- A list of promises of which one goes on. -/
theorem count_flatMap_set {α : Type} {pending : α → List FileSnapshot} {l : List α} {i : Nat}
    {a b : α} (h : l[i]? = some a) (x : FileSnapshot) :
    ((l.set i b).flatMap pending).count x + (pending a).count x =
      (l.flatMap pending).count x + (pending b).count x := by
  induction l generalizing i with
  | nil => cases h
  | cons c l ih =>
    cases i with
    | zero =>
      cases h
      rw [List.set_cons_zero, List.flatMap_cons, List.flatMap_cons, List.count_append,
        List.count_append]
      omega
    | succ i =>
      have hrest := @ih i h
      rw [List.set_cons_succ, List.flatMap_cons, List.flatMap_cons, List.count_append,
        List.count_append]
      omega

theorem workSettled_move {i : Nat} {succeeded : Bool} (hnodup : s.held.Nodup)
    (h : s.workSettled i succeeded = some (t, o)) :
    Move limits s (.workSettled i succeeded) t o := by
  unfold State.workSettled at h
  split at h
  · rename_i snapshot hwork
    have hworks : ∀ x, ((s.works.set i .settled).flatMap Work.pending).count x +
        [snapshot].count x = (s.works.flatMap Work.pending).count x := fun x =>
      count_flatMap_set hwork x
    cases succeeded with
    | true =>
      cases h
      refine .removes rfl rfl rfl ?_ (fun _ h => nomatch h)
      intro x
      have hx := hworks x
      rw [count_scheduled, count_scheduled]
      show _ + [snapshot].count x = _
      dsimp only
      omega
    | false =>
      cases h
      -- it was under way, so it has not failed before
      have hnew : snapshot ∉ s.failedCleanup := by
        intro hin
        have honce := List.nodup_iff_count_le_one.mp hnodup snapshot
        have hsome := List.count_pos_iff.mpr hin
        have hx := hworks snapshot
        rw [List.count_singleton_self] at hx
        rw [count_held, count_scheduled] at honce
        omega
      refine .removes rfl rfl rfl ?_ (fun _ h => nomatch h)
      intro x
      have hx := hworks x
      rw [count_scheduled, count_scheduled]
      show _ + (setAdd s.failedCleanup snapshot).count x + _ + 0 = _
      rw [setAdd_of_not_mem hnew, List.count_append]
      dsimp only
      omega
  · cases h

theorem workDone_move {i : Nat} (h : s.workDone i = some (t, o)) :
    Move limits s (.workDone i) t o := by
  unfold State.workDone at h
  split at h
  · rename_i hwork
    cases h
    refine .removes rfl rfl rfl ?_ (fun _ h => nomatch h)
    intro x
    have hx : ((s.works.set i .done).flatMap Work.pending).count x + 0 =
        (s.works.flatMap Work.pending).count x := count_flatMap_set hwork x
    rw [count_scheduled, count_scheduled]
    show _ + 0 = _
    dsimp only
    omega
  · cases h

theorem flatMap_retryPending (l : List FileSnapshot) :
    (l.map fun snapshot => (snapshot, (none : Option Bool))).flatMap retryPending = l := by
  induction l with
  | nil => rfl
  | cons x l ih =>
    rw [List.map_cons, List.flatMap_cons, ih]
    rfl

theorem drainResumed_move {d : Nat} (h : s.drainResumed d = some (t, o)) :
    Move limits s (.drainResumed d) t o := by
  unfold State.drainResumed at h
  split at h
  · rename_i works hdrain
    split at h
    · cases h
      refine .removes rfl rfl rfl ?_ (fun _ h => nomatch h)
      intro x
      have hretried : Drain.pending (.retrying (s.failedCleanup.map fun snapshot =>
          (snapshot, none))) = s.failedCleanup := flatMap_retryPending _
      have hx : ((s.drains.set d (.retrying (s.failedCleanup.map fun snapshot =>
          (snapshot, none)))).flatMap Drain.pending).count x + 0 = _ :=
        count_flatMap_set hdrain x
      rw [hretried] at hx
      rw [count_scheduled, count_scheduled]
      show _ + (0 : Nat) + _ + 0 = _
      dsimp only
      omega
    · cases h
  · cases h

theorem retrySettled_move {d i : Nat} {succeeded : Bool}
    (h : s.retrySettled d i succeeded = some (t, o)) :
    Move limits s (.retrySettled d i succeeded) t o := by
  unfold State.retrySettled at h
  split at h
  · rename_i removals hdrain
    split at h
    · rename_i snapshot hremoval
      cases h
      have hretries : ∀ x,
          ((removals.set i (snapshot, some succeeded)).flatMap retryPending).count x +
            [snapshot].count x = (removals.flatMap retryPending).count x +
              (retryPending (snapshot, some succeeded)).count x := fun x =>
        count_flatMap_set hremoval x
      have hdrains : ∀ x, ((s.drains.set d (.retrying (removals.set i
          (snapshot, some succeeded)))).flatMap Drain.pending).count x +
            (removals.flatMap retryPending).count x = (s.drains.flatMap Drain.pending).count x +
              ((removals.set i (snapshot, some succeeded)).flatMap retryPending).count x := fun x =>
        count_flatMap_set hdrain x
      cases succeeded with
      | true =>
        refine .removes rfl rfl rfl ?_ (fun _ h => nomatch h)
        intro x
        have hx := hretries x
        have hx' := hdrains x
        rw [count_scheduled, count_scheduled]
        show _ + _ + _ + [snapshot].count x = _
        rw [show retryPending (snapshot, some true) = [] from rfl, List.count_nil] at hx
        dsimp only
        omega
      | false =>
        refine .removes rfl rfl rfl ?_ (fun _ h => nomatch h)
        intro x
        have hx := hretries x
        have hx' := hdrains x
        rw [count_scheduled, count_scheduled]
        show _ + _ + _ + 0 = _
        rw [show retryPending (snapshot, some false) = [snapshot] from rfl] at hx
        dsimp only
        omega
    · cases h
  · cases h

/-- Where every removal has settled, those that are still pending have failed. -/
theorem flatMap_retryPending_settled {removals : List (FileSnapshot × Option Bool)}
    (h : ∀ r ∈ removals, r.2 ≠ none) :
    removals.flatMap retryPending = (removals.filter fun r => r.2 = some false).map Prod.fst := by
  induction removals with
  | nil => rfl
  | cons r removals ih =>
    have hrest := ih fun r' hr' => h r' (List.mem_cons_of_mem _ hr')
    have hfirst := h r List.mem_cons_self
    obtain ⟨x, result⟩ := r
    rw [List.flatMap_cons, hrest]
    cases result with
    | none => exact absurd rfl hfirst
    | some succeeded =>
      cases succeeded with
      | true => rfl
      | false => rfl

theorem drainFinished_move {d : Nat} (hnodup : s.held.Nodup)
    (h : s.drainFinished d = some (t, o)) : Move limits s (.drainFinished d) t o := by
  unfold State.drainFinished at h
  split at h
  · rename_i removals hdrain
    split at h
    · rename_i hsettled
      have hpending : Drain.pending (.retrying removals) =
          (removals.filter fun r => r.2 = some false).map Prod.fst :=
        flatMap_retryPending_settled hsettled
      obtain ⟨failed, hfailed⟩ : ∃ failed,
          (removals.filter fun r => r.2 = some false).map Prod.fst = failed := ⟨_, rfl⟩
      rw [hfailed] at h hpending
      have hdrains : ∀ x, ((s.drains.set d .finished).flatMap Drain.pending).count x +
          failed.count x = (s.drains.flatMap Drain.pending).count x := by
        intro x
        rw [← hpending]
        exact count_flatMap_set hdrain x
      -- they are pending in the drain, so none of them is in the set
      have hadd : failed.foldl setAdd s.failedCleanup = s.failedCleanup ++ failed := by
        refine foldl_setAdd (List.nodup_iff_count_le_one.mpr fun x => ?_)
        have honce := List.nodup_iff_count_le_one.mp hnodup x
        have hx := hdrains x
        rw [count_held, count_scheduled] at honce
        rw [List.count_append]
        omega
      dsimp only at h
      rw [hadd] at h
      obtain ⟨rfl, rfl⟩ := Prod.mk.inj (Option.some.inj h)
      have hmoved : ∀ x, (State.scheduled { s with
          drains := s.drains.set d .finished
          failedCleanup := s.failedCleanup ++ failed }).count x = s.scheduled.count x := by
        intro x
        have hx := hdrains x
        rw [count_scheduled, count_scheduled, List.count_append]
        dsimp only
        omega
      split
      · exact .removes rfl rfl rfl hmoved (fun _ h => nomatch h)
      · exact .removes rfl rfl rfl hmoved (fun _ h => nomatch h)
    · cases h
  · cases h

theorem step_move {e : Event} (hnodup : s.held.Nodup) (h : step limits s e = some (t, o)) :
    Move limits s e t o := by
  cases e with
  | issue snapshot binding prunedAt entropy issuedAt =>
    have hmove := @issue_move limits s snapshot binding prunedAt entropy issuedAt
    rw [Option.some.inj h] at hmove
    exact hmove
  | describe capability binding now =>
    have hmove := @describe_move limits s capability binding now
    rw [Option.some.inj h] at hmove
    exact hmove
  | consume capability binding now =>
    have hmove := @consume_move limits s capability binding now
    rw [Option.some.inj h] at hmove
    exact hmove
  | pruneExpired now =>
    obtain ⟨rfl, rfl⟩ := Prod.mk.inj (Option.some.inj h)
    exact .evicts (evicts_pruneExpired s now) rfl rfl
  | drainCleanup =>
    obtain ⟨rfl, rfl⟩ := Prod.mk.inj (Option.some.inj h)
    exact .evicts (evicts_drainCleanup s) rfl rfl
  | invalidateAll =>
    obtain ⟨rfl, rfl⟩ := Prod.mk.inj (Option.some.inj h)
    exact .evicts (evicts_invalidateAll s) rfl rfl
  | workSettled i succeeded => exact workSettled_move hnodup h
  | workDone i => exact workDone_move h
  | drainResumed d => exact drainResumed_move h
  | retrySettled d i succeeded => exact retrySettled_move h
  | drainFinished d => exact drainFinished_move hnodup h

/-! ## What the steps keep -/

variable {e : Event}

/-- No step loses or doubles a snapshot. -/
theorem Move.held (h : Move limits s e t o) (x : FileSnapshot) :
    t.held.count x + o.left.count x = s.held.count x + (entered e o).count x := by
  cases h with
  | evicts h hin hout =>
    rw [hin, hout, h.held]
  | @issues argument binding prunedAt entropy issuedAt p y b capability h hsnapshot _ _ hnew =>
    have hentered : ∀ answer, entered (.issue argument binding prunedAt entropy issuedAt)
        (.issued answer) = [y] := fun _ =>
      congrArg (fun r : Except VaultError FileSnapshot => r.toOption.toList) hsnapshot
    rw [hentered, ← h.held]
    unfold State.held State.live
    dsimp only
    rw [JsMap.values_append, List.map_append, List.count_append, List.count_append,
      List.count_append]
    show _ + [y].count x + p.scheduled.count x + 0 = _
    omega
  | @returns _ _ _ entry hget _ _ =>
    have hlive := (live_deleteEntry hget).count_eq x
    rw [← List.singleton_append, List.count_append] at hlive
    rw [count_held, count_held]
    show _ + s.scheduled.count x + [entry.snapshot].count x = _ + 0
    omega
  | removes hentries _ hin hscheduled _ =>
    have hx := hscheduled x
    have hlive : t.live = s.live := congrArg (fun m => m.values.map VaultEntry.snapshot) hentries
    rw [hin, count_held, count_held, hlive, List.count_nil]
    omega

theorem Move.sound (h : Move limits s e t o) (hs : Sound limits s) : Sound limits t := by
  cases h with
  | evicts h _ _ => exact h.sound hs
  | issues h _ _ hquota hnew =>
    have hp := h.sound hs
    rw [not_or] at hquota
    obtain ⟨hroom, hbytes⟩ := hquota
    refine ⟨?_, ?_, ?_⟩
    · unfold State.live
      dsimp only
      rw [JsMap.values_append, List.map_append, List.map_append, List.sum_append, hp.total]
      show _ = _ + ([_] : List Int).sum
      rw [List.sum_singleton]
      rfl
    · show ((_ ++ [_] : List (String × VaultEntry)).length : Int) ≤ _
      rw [List.length_append, List.length_singleton]
      unfold JsMap.size at hroom
      omega
    · dsimp only
      omega
  | returns hget _ _ => exact hs.deleteEntry hget
  | removes hentries htotal _ _ _ =>
    refine ⟨?_, ?_, ?_⟩
    · have hlive : t.live = s.live := congrArg (fun m => m.values.map VaultEntry.snapshot) hentries
      rw [htotal, hlive]
      exact hs.total
    · rw [hentries]
      exact hs.entries_le
    · rw [htotal]
      exact hs.total_le

theorem Move.scheduled (h : Move limits s e t o) {x : FileSnapshot} (hx : x ∈ s.scheduled) :
    x ∈ t.scheduled ∨ o = .removed x := by
  have hpos := List.count_pos_iff.mpr hx
  cases h with
  | evicts h _ _ =>
    have hle := h.scheduled x
    exact .inl (List.count_pos_iff.mp (by omega))
  | @issues _ _ _ _ _ p y _ _ h _ _ _ _ =>
    have hle := h.scheduled x
    exact .inl (show x ∈ p.scheduled from List.count_pos_iff.mp (by omega))
  | returns _ _ _ => exact .inl hx
  | removes _ _ _ hscheduled hreturned =>
    have hsum := hscheduled x
    by_cases hleft : x ∈ o.left
    · right
      cases o with
      | removed y =>
        obtain rfl := List.mem_singleton.mp hleft
        rfl
      | returned y => exact absurd rfl (hreturned y)
      | issued _ => cases hleft
      | described _ => cases hleft
      | thrown _ => cases hleft
      | nothing => cases hleft
    · rw [List.count_eq_zero.mpr hleft] at hsum
      exact .inl (List.count_pos_iff.mp (by omega))

/-- An entry is from before, or issued in this step. -/
theorem Move.entries (h : Move limits s e t o) {k : String} {entry : VaultEntry}
    (hget : t.entries.get k = some entry) : s.entries.get k = some entry ∨
      ∃ snapshot binding prunedAt entropy issuedAt answer,
        e = .issue snapshot binding prunedAt entropy issuedAt ∧ o = .issued answer ∧
        answer.capability = k ∧ validateSnapshot snapshot = .ok entry.snapshot ∧
        validateBinding binding = .ok entry.binding ∧
        entry.expiresAt = issuedAt + limits.ttlMs := by
  cases h with
  | evicts h _ _ => exact .inl (h.entries k entry hget)
  | @issues snapshot binding prunedAt entropy issuedAt p x b c h hsnapshot hbinding _ hnew =>
    rcases List.mem_append.mp (JsMap.get_eq_some.mp hget) with hold | hlast
    · exact .inl (h.entries k entry (JsMap.get_eq_some.mpr hold))
    · obtain ⟨rfl, rfl⟩ := Prod.mk.inj (List.mem_singleton.mp hlast)
      exact .inr ⟨_, _, _, _, _, _, rfl, rfl, rfl, hsnapshot, hbinding, rfl⟩
  | returns _ _ _ =>
    rw [JsMap.get_eq_some] at hget ⊢
    exact .inl (List.mem_filter.mp hget).1
  | removes hentries _ _ _ _ =>
    rw [hentries] at hget
    exact .inl hget

end Steps

/-! ## Runs -/

section Runs

def issuedIn (tr : List (Lib.Entry State Event Output)) : List FileSnapshot :=
  tr.flatMap fun x => entered x.event x.out

def returnedIn (tr : List (Lib.Entry State Event Output)) : List FileSnapshot :=
  tr.flatMap fun x =>
    match x.out with
    | .returned snapshot => [snapshot]
    | _ => []

def removedIn (tr : List (Lib.Entry State Event Output)) : List FileSnapshot :=
  tr.flatMap fun x =>
    match x.out with
    | .removed snapshot => [snapshot]
    | _ => []

/-- Some step issued `capability` for the snapshot and the binding, to expire at `expiresAt`. -/
def IssuedFor (limits : Limits) (tr : List (Lib.Entry State Event Output)) (capability : String)
    (snapshot : FileSnapshot) (binding : Binding) (expiresAt : Int) : Prop :=
  ∃ x ∈ tr, ∃ argument bindingArgument prunedAt entropy issuedAt answer,
    x.event = .issue argument bindingArgument prunedAt entropy issuedAt ∧ x.out = .issued answer ∧
    answer.capability = capability ∧ validateSnapshot argument = .ok snapshot ∧
    validateBinding bindingArgument = .ok binding ∧ expiresAt = issuedAt + limits.ttlMs

variable {limits : Limits} {s t u : State} {tr tr' : List (Lib.Entry State Event Output)}

theorem count_left (tr : List (Lib.Entry State Event Output)) (x : FileSnapshot) :
    (tr.flatMap fun y => y.out.left).count x =
      (returnedIn tr).count x + (removedIn tr).count x := by
  unfold returnedIn removedIn
  induction tr with
  | nil => rfl
  | cons y tr ih =>
    rw [List.flatMap_cons, List.flatMap_cons, List.flatMap_cons, List.count_append,
      List.count_append, List.count_append, ih]
    cases y.out with
    | returned snapshot =>
      show [snapshot].count x + _ = [snapshot].count x + _ + (0 + _)
      omega
    | removed snapshot =>
      show [snapshot].count x + _ = 0 + _ + ([snapshot].count x + _)
      omega
    | issued _ =>
      show 0 + _ = 0 + _ + (0 + _)
      omega
    | described _ =>
      show 0 + _ = 0 + _ + (0 + _)
      omega
    | thrown _ =>
      show 0 + _ = 0 + _ + (0 + _)
      omega
    | nothing =>
      show 0 + _ = 0 + _ + (0 + _)
      omega

/-- What holds of a vault behind a run. -/
structure Kept (limits : Limits) (tr : List (Lib.Entry State Event Output)) (t : State) : Prop where
  sound : Sound limits t
  held : ∀ x, t.held.count x + (tr.flatMap fun y => y.out.left).count x = (issuedIn tr).count x
  entries : ∀ k entry, t.entries.get k = some entry →
    IssuedFor limits tr k entry.snapshot entry.binding entry.expiresAt
  returned : ∀ y ∈ tr, ∀ capability binding now snapshot,
    y.event = .consume capability binding now → y.out = .returned snapshot →
      ∃ c b expiresAt, capability = some c ∧ validateConsumptionBinding binding = .ok b ∧
        IssuedFor limits tr c snapshot b expiresAt ∧ now < expiresAt

theorem Kept.step {x : Lib.Entry State Event Output} (hk : Kept limits tr t)
    (h : Vault.step limits t x.event = some (u, x.out)) (hpre : x.pre = t)
    (hissued : (issuedIn (tr ++ [x])).Nodup) :
    Kept limits (tr ++ [x]) u ∧ ∀ y ∈ t.scheduled, y ∈ u.scheduled ∨ x.out = .removed y := by
  have hsplit : ∀ y, (issuedIn (tr ++ [x])).count y =
      (issuedIn tr).count y + (entered x.event x.out).count y := by
    intro y
    unfold issuedIn
    rw [List.flatMap_append, List.count_append, List.flatMap_singleton]
  have hnodup : t.held.Nodup := by
    refine List.nodup_iff_count_le_one.mpr fun y => ?_
    have honce := List.nodup_iff_count_le_one.mp hissued y
    have hheld := hk.held y
    have hy := hsplit y
    omega
  have hmove := step_move hnodup h
  have hlater : ∀ {c y b z}, IssuedFor limits tr c y b z → IssuedFor limits (tr ++ [x]) c y b z :=
    fun ⟨w, hw, hrest⟩ => ⟨w, List.mem_append_left _ hw, hrest⟩
  refine ⟨⟨hmove.sound hk.sound, ?_, ?_, ?_⟩, fun y hy => hmove.scheduled hy⟩
  · intro y
    have hheld := hk.held y
    have hstep := hmove.held y
    rw [hsplit, List.flatMap_append, List.count_append, List.flatMap_singleton]
    omega
  · intro k entry hget
    rcases hmove.entries hget with hold | ⟨a, b, p, n, i, answer, he, ho, hrest⟩
    · exact hlater (hk.entries k entry hold)
    · exact ⟨x, List.mem_append_right _ List.mem_cons_self, a, b, p, n, i, answer, he, ho, hrest⟩
  · intro y hy capability binding now snapshot hevent hout
    rcases List.mem_append.mp hy with hold | hlast
    · obtain ⟨c, b, expiresAt, hc, hb, hfor, hnow⟩ :=
        hk.returned y hold capability binding now snapshot hevent hout
      exact ⟨c, b, expiresAt, hc, hb, hlater hfor, hnow⟩
    · obtain rfl := List.mem_singleton.mp hlast
      rw [hevent, hout] at hmove
      cases hmove with
      | evicts _ _ hleft => cases hleft
      | returns hget hbinding hnow =>
        exact ⟨_, _, _, rfl, hbinding, hlater (hk.entries _ _ hget), hnow⟩
      | removes _ _ _ _ hreturned => exact absurd rfl (hreturned snapshot)

theorem Kept.run (hk : Kept limits tr t) (h : Run (Vault.step limits) t tr' u)
    (hissued : (issuedIn (tr ++ tr')).Nodup) : Kept limits (tr ++ tr') u ∧
      ∀ y ∈ t.scheduled, y ∈ u.scheduled ∨ y ∈ removedIn tr' := by
  induction h with
  | start =>
    rw [List.append_nil]
    exact ⟨hk, fun y hy => .inl hy⟩
  | @next tr' v u e o _ he ih =>
    rw [← List.append_assoc] at hissued ⊢
    have hearlier : (issuedIn (tr ++ tr')).Nodup := by
      unfold issuedIn at hissued ⊢
      rw [List.flatMap_append] at hissued
      exact hissued.of_append_left
    obtain ⟨hkept, hscheduled⟩ := ih hearlier
    obtain ⟨hkept', hscheduled'⟩ := hkept.step (x := ⟨v, e, o⟩) he rfl hissued
    refine ⟨hkept', ?_⟩
    intro y hy
    unfold removedIn at hscheduled ⊢
    rw [List.flatMap_append, List.mem_append]
    rcases hscheduled y hy with hy | hy
    · rcases hscheduled' y hy with hy | hout
      · exact .inl hy
      · refine .inr (.inr ?_)
        rw [List.flatMap_singleton]
        dsimp only at hout ⊢
        rw [hout]
        exact List.mem_cons_self
    · exact .inr (.inl hy)

theorem kept_initial (h : createFileCapabilityVault limits = .ok s) : Kept limits [] s := by
  unfold createFileCapabilityVault assertLimit at h
  obtain ⟨_, httl, h⟩ := bind_eq_ok.mp h
  obtain ⟨_, hentries, h⟩ := bind_eq_ok.mp h
  obtain ⟨_, hbytes, h⟩ := bind_eq_ok.mp h
  have hentries := rejectIf_eq_ok.mp hentries
  have hbytes := rejectIf_eq_ok.mp hbytes
  cases h
  refine ⟨⟨rfl, ?_, ?_⟩, fun _ => rfl, ?_, ?_⟩
  · show (0 : Int) ≤ _
    omega
  · show (0 : Int) ≤ _
    omega
  · intro k entry hget
    exact absurd (JsMap.get_eq_some.mp hget) List.not_mem_nil
  · intro y hy
    cases hy

end Runs

/-- Every issued snapshot is in one place: in a live entry, returned by one `consume`, scheduled for
removal, or removed. What is scheduled stays so until it is removed. What `consume` returns was
issued for the same binding and has not expired. The bytes are those of the live entries, and the
quotas hold. The hypothesis says that no snapshot is issued twice. -/
theorem capabilities_are_single_use {limits : Limits} {s t : State}
    {tr : List (Lib.Entry State Event Output)} (hvault : createFileCapabilityVault limits = .ok s)
    (h : Run (step limits) s tr t) (hissued : (issuedIn tr).Nodup) :
    (t.live ++ returnedIn tr ++ t.scheduled ++ removedIn tr).Perm (issuedIn tr) ∧
    (∀ tr' u, Run (step limits) t tr' u → (issuedIn (tr ++ tr')).Nodup →
      ∀ x ∈ t.scheduled, x ∈ u.scheduled ∨ x ∈ removedIn tr') ∧
    (∀ y ∈ tr, ∀ capability binding now snapshot,
      y.event = .consume capability binding now → y.out = .returned snapshot →
        ∃ c b expiresAt, capability = some c ∧ validateConsumptionBinding binding = .ok b ∧
          IssuedFor limits tr c snapshot b expiresAt ∧ now < expiresAt) ∧
    t.totalBytes = (t.live.map fun x => (x.byteSize : Int)).sum ∧
    (t.entries.size : Int) ≤ limits.maxEntries ∧ t.totalBytes ≤ limits.maxTotalBytes := by
  have hkept := ((kept_initial hvault).run h hissued).1
  refine ⟨?_, ?_, hkept.returned, hkept.sound.total, hkept.sound.entries_le,
    hkept.sound.total_le⟩
  · refine List.perm_iff_count.mpr fun x => ?_
    have hheld := hkept.held x
    have hleft := count_left tr x
    rw [count_held] at hheld
    rw [List.nil_append] at hheld
    rw [List.count_append, List.count_append, List.count_append]
    omega
  · intro tr' u hrun hboth
    exact (hkept.run hrun hboth).2

def sampleSnapshot (id : Nat) : SnapshotArgument where
  id := id
  privatePath := some "snapshot.bin"
  filename := some "a.txt"
  contentType := some "text/plain"
  byteSize := some 3
  sha256 := String.ofList (List.replicate 64 'a')
  hasRemove := true

def sampleBinding (profileEpoch : Int) : BindingArgument where
  profileEpoch := some profileEpoch
  webContentsId := some 1
  frameRoutingId := some 1
  purpose := some "upload"

def sampleEntropy (n : Nat) : Bytes := List.replicate 24 (UInt8.ofNat n)

def sampleCapability (n : Nat) : String :=
  "yfc_" ++ Base64.encode Base64.urlSafeNoPad (sampleEntropy n)

def sampleIssue (n : Nat) : Event :=
  .issue (some (sampleSnapshot n)) (some (sampleBinding 1)) (fun _ => n) (some (sampleEntropy n)) n

/-- Of three snapshots one is consumed, one is asked for with another binding and cannot be removed,
and one stays. -/
def sampleEvents : List Event :=
  [sampleIssue 1, sampleIssue 2, sampleIssue 3,
    .consume (sampleCapability 1) (some (sampleBinding 1)) 3,
    .consume (sampleCapability 2) (some (sampleBinding 2)) 4, .workSettled 0 false, .workDone 0,
    .drainCleanup, .drainResumed 0, .retrySettled 0 0 false, .drainFinished 0]

theorem capabilities_are_single_use_three :
    ∃ tr t, createFileCapabilityVault {} = .ok initial ∧
      exec (step {}) initial sampleEvents = some (tr, t) ∧
      (t.live ++ returnedIn tr ++ t.scheduled ++ removedIn tr).Perm (issuedIn tr) ∧
      (issuedIn tr).map FileSnapshot.id = [1, 2, 3] ∧ t.scheduled.map FileSnapshot.id = [2] := by
  have hvault : createFileCapabilityVault {} = .ok initial := rfl
  have hrun : (exec (step {}) initial sampleEvents).map
      (fun r => ((issuedIn r.1).map FileSnapshot.id, r.2.scheduled.map FileSnapshot.id)) =
        some ([1, 2, 3], [2]) := by decide +kernel
  obtain ⟨r, hr, heq⟩ := Option.map_eq_some_iff.mp hrun
  obtain ⟨hissued, hscheduled⟩ := Prod.mk.inj heq
  have hnodup : (issuedIn r.1).Nodup := by
    refine List.Nodup.of_map FileSnapshot.id ?_
    rw [hissued]
    decide
  exact ⟨r.1, r.2, hvault, hr,
    (capabilities_are_single_use hvault (run_of_exec hr) hnodup).1, hissued, hscheduled⟩

end Vault
end Files
end Yuance
