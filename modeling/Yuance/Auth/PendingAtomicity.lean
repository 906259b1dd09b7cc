import Yuance.Auth.PendingAuthorization
import Yuance.Lib.Runs

/-!
# Yuance.Auth.PendingAtomicity

What the pending-authorization file holds when the calls of `save` and `remove` fail or the process
dies.

`view` is the authorization that the files stand for: none behind a removal marker, else the file or
the backup that `recoverSecretFile` would move back.

* `load_view`: what a later `load` returns.
* `recover_view`: recovery keeps the record.
* `save_keeps_record`: `save` keeps or replaces the record, unless the directory sync behind the
  removal of the backup fails: `hasBackup` is still set there, so the `catch` block removes the new file
  and finds no backup to move back.
* `removed_stays_empty`: the runs behind a removal marker.
-/

namespace Yuance
namespace Auth
namespace PendingAuthorization

open Lib

variable (store : Store)

def secure (file : File) : Bool := store.platform.isWindows || file.mode &&& 0o077 == 0

/-- What `load` makes of the record. -/
def reading : Option File → LoadResult
  | none => .empty
  | some file =>
    if secure store file then readEnvelope store file.text else .locked "insecure_permissions"

def current (d : Disk) : Option File := (d (filePath store)).or (d (previousPath store))

def view (d : Disk) : Option File :=
  if (d (removalMarker store)).isSome then none else current store d

theorem previous_ne_file : previousPath store ≠ filePath store :=
  (append_ne_self (by decide)).symm

theorem marker_ne_file : removalMarker store ≠ filePath store :=
  (append_ne_self (by decide)).symm

theorem previous_ne_marker : previousPath store ≠ removalMarker store :=
  ne_of_ends 's' 'e' rfl rfl (by decide)

theorem temporary_ne_file (nonce : String) : temporaryPath store nonce ≠ filePath store :=
  ne_of_longer (by simp [temporaryPath, filePath])

theorem temporary_ne_marker (nonce : String) : temporaryPath store nonce ≠ removalMarker store :=
  ne_of_ends 'p' 'e' rfl rfl (by decide)

theorem temporary_ne_previous (nonce : String) :
    temporaryPath store nonce ≠ previousPath store :=
  ne_of_ends 'p' 's' rfl rfl (by decide)

theorem view_of_pending {d : Disk} (h : (d (removalMarker store)).isSome) :
    view store d = none := if_pos h

theorem view_of_marker_none {d : Disk} (h : d (removalMarker store) = none) :
    view store d = current store d := by
  rw [view, h]
  rfl

section Recovery

open Prog

variable {σ : Type} {w : World σ} {R : Option File}

theorem touches_syncDirectory {S : List String} :
    Touches S (syncDirectory store : Prog σ Unit) :=
  touches_guarded (touches_bind touches_quiet fun _ => touches_lastly touches_quiet touches_quiet)

theorem touches_prepareSecretDirectory {S : List String} :
    Touches S (prepareSecretDirectory store : Prog σ Unit) := by
  unfold prepareSecretDirectory
  split
  · exact touches_quiet
  · exact touches_bind touches_quiet fun _ => touches_quiet

/-- Nothing is left but perhaps the marker. -/
def Emptied (d : Disk) : Prop :=
  d (filePath store) = none ∧ d (previousPath store) = none

theorem view_of_emptied {d : Disk} (h : Emptied store d) : view store d = none := by
  unfold view
  split
  · rfl
  · rw [current, h.1, h.2]
    rfl

/-- The end of a removal: the files are gone when the marker goes. -/
theorem removeMarker_view (h : Emptied store w.disk) :
    wp (do
        syncDirectory store
        Fs.unlinkIfExists (removalMarker store)
        syncDirectory store : Prog σ Unit)
      (fun _ v => Emptied store v.disk ∧ v.disk (removalMarker store) = none)
      (fun _ v => Emptied store v.disk) (Emptied store) w := by
  have hgone : Emptied store (w.disk.set (removalMarker store) none) := by
    refine ⟨?_, ?_⟩
    · rw [Disk.set_other (marker_ne_file store).symm, h.1]
    · rw [Disk.set_other (previous_ne_marker store), h.2]
  apply wp_bind
  apply wp_still (touches_syncDirectory store)
  · intro _ v hv
    apply wp_bind
    apply wp_unlinkIfExists
    · intro u _ hu
      rw [hv.2] at hu
      apply wp_still (touches_syncDirectory store)
      · intro _ t ht
        rw [ht.2, hu]
        exact ⟨hgone, Disk.set_same ..⟩
      · intro _ t ht
        rw [ht.2, hu]
        exact hgone
      · rw [hu]
        exact hgone
    · intro u hu
      rw [hu.2, hv.2]
      exact h
    · rw [hv.2]
      exact h
    · rw [hv.2]
      exact hgone
  · intro _ v hv
    rw [hv.2]
    exact h
  · exact h

/-- A pending removal, or one of nothing, stands for no record however far it gets. -/
theorem finishRemoval_view (h : view store w.disk = none) :
    wp (finishRemoval store)
      (fun _ v => Emptied store v.disk ∧ v.disk (removalMarker store) = none)
      (fun _ v => view store v.disk = none) (fun d => view store d = none) w := by
  have keep : ∀ (d : Disk) (name : String), name = filePath store ∨ name = previousPath store →
      view store d = none → view store (d.set name none) = none := by
    intro d name hname hd
    unfold view current at hd ⊢
    rcases hname with rfl | rfl
    · rw [Disk.set_other (marker_ne_file store), Disk.set_same,
        Disk.set_other (previous_ne_file store)]
      split at hd
      · rw [if_pos ‹_›]
      · rw [if_neg ‹_›]
        exact (Option.or_eq_none_iff.mp hd).2
    · rw [Disk.set_other (previous_ne_marker store).symm,
        Disk.set_other (previous_ne_file store).symm, Disk.set_same]
      split at hd
      · rw [if_pos ‹_›]
      · rw [if_neg ‹_›, (Option.or_eq_none_iff.mp hd).1]
        rfl
  apply wp_bind
  apply wp_unlinkIfExists
  · intro v _ hv
    have hvn : view store v.disk = none := hv ▸ keep _ _ (.inl rfl) h
    apply wp_bind
    apply wp_unlinkIfExists
    · intro u _ hu
      apply wp_mono (removeMarker_view store (w := u) ?_)
      · exact fun _ _ hq => hq
      · exact fun _ _ hq => view_of_emptied store hq
      · exact fun _ hq => view_of_emptied store hq
      · rw [hu, hv]
        refine ⟨?_, Disk.set_same ..⟩
        rw [Disk.set_other (previous_ne_file store).symm, Disk.set_same]
    · exact fun u hu => hu.2 ▸ hvn
    · exact hvn
    · exact keep _ _ (.inr rfl) hvn
  · exact fun v hv => hv.2 ▸ h
  · exact h
  · exact keep _ _ (.inl rfl) h

theorem recoverBackup_view (hm : w.disk (removalMarker store) = none)
    (h : current store w.disk = R) :
    wp (recoverBackup store)
      (fun _ v => v.disk (removalMarker store) = none ∧ v.disk (filePath store) = R ∧
        v.disk (previousPath store) = none)
      (fun _ v => v.disk (removalMarker store) = none ∧ current store v.disk = R)
      (fun d => d (removalMarker store) = none ∧ current store d = R) w := by
  -- the file is the record and the backup is gone
  have settle : ∀ v : World σ, v.disk (removalMarker store) = none → v.disk (filePath store) = R →
      v.disk (previousPath store) = none →
      wp (syncDirectory store)
        (fun _ v => v.disk (removalMarker store) = none ∧ v.disk (filePath store) = R ∧
          v.disk (previousPath store) = none)
        (fun _ v => v.disk (removalMarker store) = none ∧ current store v.disk = R)
        (fun d => d (removalMarker store) = none ∧ current store d = R) v := by
    intro v h1 h2 h3
    have hc : current store v.disk = R := by rw [current, h2, h3, Option.or_none]
    apply wp_still (touches_syncDirectory store)
    · intro _ u hu
      rw [hu.2]
      exact ⟨h1, h2, h3⟩
    · intro _ u hu
      rw [hu.2]
      exact ⟨h1, hc⟩
    · exact ⟨h1, hc⟩
  apply wp_bind
  apply wp_pathExists
  · intro v hv
    cases hp : w.disk (previousPath store) with
    | none =>
      apply wp_pure
      rw [hv.2]
      refine ⟨hm, ?_, hp⟩
      rw [current, hp, Option.or_none] at h
      exact h
    | some g =>
      apply wp_bind
      apply wp_pathExists
      · intro u hu
        have hud : u.disk = w.disk := hu.2.trans hv.2
        rw [hv.2]
        apply wp_bind
        unfold settleBackup
        cases ht : w.disk (filePath store) with
        | some f =>
          have hf : R = some f := by rw [← h, current, ht, Option.some_or]
          apply wp_unlink
          · intro _ t _ _ htd
            rw [hud] at htd
            apply settle t
            · rw [htd, Disk.set_other (previous_ne_marker store).symm, hm]
            · rw [htd, Disk.set_other (previous_ne_file store).symm, ht, hf]
            · rw [htd, Disk.set_same]
          · intro t _ htd
            rw [htd.2, hud]
            exact ⟨hm, h⟩
          · intro t htd
            rw [htd.2, hud]
            exact ⟨hm, h⟩
          · rw [hud]
            exact ⟨hm, h⟩
          · intro _ _
            rw [hud, Disk.set_other (previous_ne_marker store).symm, current,
              Disk.set_other (previous_ne_file store).symm, ht, Option.some_or]
            exact ⟨hm, hf.symm⟩
        | none =>
          have hg : R = some g := by rw [← h, current, ht, hp, Option.none_or]
          apply wp_rename
          · intro g' t hg' _ htd
            rw [hud] at hg' htd
            obtain rfl : g = g' := Option.some.inj (hp.symm.trans hg')
            apply settle t
            · rw [htd, Disk.set_other (marker_ne_file store),
                Disk.set_other (previous_ne_marker store).symm, hm]
            · rw [htd, Disk.set_same, hg]
            · rw [htd, Disk.set_other (previous_ne_file store), Disk.set_same]
          · intro t _ htd
            rw [htd.2, hud]
            exact ⟨hm, h⟩
          · intro t htd
            rw [htd.2, hud]
            exact ⟨hm, h⟩
          · rw [hud]
            exact ⟨hm, h⟩
          · intro g' hg'
            rw [hud] at hg' ⊢
            obtain rfl : g = g' := Option.some.inj (hp.symm.trans hg')
            rw [Disk.set_other (marker_ne_file store),
              Disk.set_other (previous_ne_marker store).symm, current, Disk.set_same,
              Option.some_or]
            exact ⟨hm, hg.symm⟩
      · intro u hu
        rw [hu.2, hv.2]
        exact ⟨hm, h⟩
      · rw [hv.2]
        exact ⟨hm, h⟩
  · intro v hv
    rw [hv.2]
    exact ⟨hm, h⟩
  · exact ⟨hm, h⟩

/-- Recovery keeps the record; where it returns, the record is the file and nothing else is left. -/
theorem recover_view (h : view store w.disk = R) :
    wp (recover store)
      (fun _ v => v.disk (removalMarker store) = none ∧ v.disk (filePath store) = R ∧
        v.disk (previousPath store) = none)
      (fun _ v => view store v.disk = R) (fun d => view store d = R) w := by
  apply wp_bind
  apply wp_still (touches_prepareSecretDirectory store)
  · intro _ v hv
    apply wp_bind
    apply wp_pathExists
    · intro u hu
      have hud : u.disk = w.disk := hu.2.trans hv.2
      rw [hv.2]
      cases hm : w.disk (removalMarker store) with
      | some f =>
        obtain rfl : none = R := (view_of_pending store (by rw [hm]; rfl)).symm.trans h
        rw [Option.isSome_some, if_pos rfl]
        apply wp_mono (finishRemoval_view store (w := u) (hud ▸ h))
        · exact fun _ t ht => ⟨ht.2, ht.1⟩
        · exact fun _ _ ht => ht
        · exact fun _ ht => ht
      | none =>
        rw [view_of_marker_none store hm] at h
        show wp (recoverBackup store) _ _ _ _
        apply wp_mono (recoverBackup_view store (w := u) (hud ▸ hm) (hud ▸ h))
        · exact fun _ _ ht => ht
        · intro _ t ⟨h1, h2⟩
          rw [view_of_marker_none store h1, h2]
        · intro t ⟨h1, h2⟩
          rw [view_of_marker_none store h1, h2]
    · intro u hu
      rw [hu.2, hv.2]
      exact h
    · rw [hv.2]
      exact h
  · intro _ v hv
    rw [hv.2]
    exact h
  · exact h

end Recovery

section Load

open Prog

variable {σ : Type} (d : Disk) (v : σ)

theorem syncDirectory_calm :
    syncDirectory store (World.calm d v) = (.value (), World.calm d v) := by
  unfold syncDirectory guarded
  split <;> rfl

theorem prepareSecretDirectory_calm :
    prepareSecretDirectory store (World.calm d v) = (.value (), World.calm d v) := by
  unfold prepareSecretDirectory
  split <;> rfl

theorem finishRemoval_calm :
    ∃ e, finishRemoval store (World.calm d v) = (.value (), World.calm e v) := by
  refine ⟨((d.set (filePath store) none).set (previousPath store) none).set (removalMarker store)
    none, ?_⟩
  unfold finishRemoval
  rw [bind_of_value (unlinkIfExists_calm d v _), bind_of_value (unlinkIfExists_calm _ v _),
    bind_of_value (syncDirectory_calm store _ v), bind_of_value (unlinkIfExists_calm _ v _),
    syncDirectory_calm]

theorem recoverBackup_calm :
    ∃ e, recoverBackup store (World.calm d v) = (.value (), World.calm e v) := by
  unfold recoverBackup
  rw [bind_of_value (pathExists_calm d v _)]
  cases hp : d (previousPath store) with
  | none => exact ⟨d, rfl⟩
  | some f =>
    rw [Option.isSome_some, guarded, if_pos rfl, bind_of_value (pathExists_calm d v _)]
    have hsettle : ∃ e, settleBackup store (d (filePath store)).isSome (World.calm d v) =
        (.value (), World.calm e v) := by
      unfold settleBackup
      split
      · exact ⟨_, unlink_calm d v hp⟩
      · exact ⟨_, rename_calm d v hp⟩
    obtain ⟨e, he⟩ := hsettle
    refine ⟨e, ?_⟩
    rw [bind_of_value he, syncDirectory_calm]

/-- Recovery that is not disturbed returns, and leaves the record as the file. -/
theorem recover_calm :
    ∃ e, recover store (World.calm d v) = (.value (), World.calm e v) ∧
      e (filePath store) = view store d := by
  have hrun : ∃ e, recover store (World.calm d v) = (.value (), World.calm e v) := by
    unfold recover recoverSecretFile
    rw [bind_of_value (prepareSecretDirectory_calm store d v), bind_of_value (pathExists_calm d v _)]
    split
    · exact finishRemoval_calm store d v
    · exact recoverBackup_calm store d v
  obtain ⟨e, he⟩ := hrun
  have hview := recover_view store (w := World.calm d v) (R := view store d) rfl
  unfold wp at hview
  rw [he] at hview
  exact ⟨e, he, hview.2.1⟩

theorem readSecretFile_calm :
    readSecretFile store (World.calm d v) =
      (.value (reading store (d (filePath store))), World.calm d v) := by
  unfold readSecretFile insecurePermissions reading secure
  cases hw : store.platform.isWindows with
  | true =>
    cases h : d (filePath store) with
    | none => simp [catching, Prog.bind, Bind.bind, Fs.readFile, call, perform, h, Prog.pure]
    | some f => simp [catching, Prog.bind, Bind.bind, Fs.readFile, call, perform, h, Prog.pure]
  | false =>
    cases h : d (filePath store) with
    | none => simp [catching, Prog.bind, Bind.bind, Fs.stat, call, perform, h, Prog.pure]
    | some f =>
      by_cases hs : f.mode &&& 63 = 0
      · simp [catching, Prog.bind, Bind.bind, Fs.stat, Fs.readFile, call, perform, h, Prog.pure, hs]
      · simp [catching, Prog.bind, Bind.bind, Fs.stat, call, perform, h, Prog.pure, hs]

/-- A later `load`, in a process of its own whose calls are done. -/
def laterLoad : Outcome LoadResult := (load store (World.calm d ())).1

theorem load_view : laterLoad store d = .value (reading store (view store d)) := by
  obtain ⟨e, he, ht⟩ := recover_calm store d ()
  have hrec : catching (recover store >>= fun _ => Prog.pure true) (fun _ => Prog.pure false)
      (World.calm d ()) = (.value true, World.calm e ()) := by
    apply catching_of_value
    rw [bind_of_value he]
    rfl
  unfold laterLoad load
  rw [bind_of_value hrec, if_pos rfl, readSecretFile_calm, ht]

/-- Whatever becomes of its calls, `load` keeps the record. -/
theorem load_keeps_view {w : World Unit} {R : Option File} (h : view store w.disk = R) :
    view store (load store w).2.disk = R := by
  have hread : Touches [] (readSecretFile store : Prog Unit LoadResult) := by
    apply touches_catching
    · apply touches_bind
      · unfold insecurePermissions
        split
        · exact touches_pure false
        · exact touches_bind (touches_stat _) fun _ => touches_pure _
      · intro b
        split
        · exact touches_pure _
        · exact touches_bind (touches_readFile _) fun _ => touches_pure _
    · exact fun _ => touches_pure _
  apply disk_of_wp (P := fun d => view store d = R)
  apply wp_bind
  apply wp_catching
  apply wp_bind
  refine wp_mono (recover_view store h) ?_ ?_ (fun _ hd => hd)
  · intro _ v ⟨hm, hf, hp⟩
    have hv : view store v.disk = R := by
      rw [view_of_marker_none store hm, current, hf, hp, Option.or_none]
    apply wp_pure
    rw [if_pos rfl]
    exact wp_still hread (fun _ _ hs => hs.2 ▸ hv) (fun _ _ hs => hs.2 ▸ hv) hv
  · intro _ v hv
    exact wp_pure (wp_pure hv)

end Load

section Counting

open Prog

variable {σ : Type}

/-- The calls of `syncDirectory`. -/
def syncCalls : Nat := if !store.platform.isWindows then 3 else 0

def prepareCalls : Nat := if store.platform.isWindows then 1 else 2

/-- The call that sets the mode of a file. -/
def modeCalls : Nat := if !store.platform.isWindows then 1 else 0

/-- The calls of `recover`. -/
def recoverCalls (d : Disk) : Nat :=
  prepareCalls store +
    (1 + if (d (removalMarker store)).isSome then
        1 + (1 + (syncCalls store + (1 + syncCalls store)))
      else 1 + if (d (previousPath store)).isSome then 1 + (1 + syncCalls store) else 0)

/-- The calls that open and write the temporary file. -/
def temporaryCalls : Nat := 1 + (1 + (modeCalls store + 1) + 1)

theorem spends_syncDirectory : Spends (syncCalls store) (syncDirectory store : Prog σ Unit) :=
  spends_guarded (n := 3)
    (spends_bind (spends_call _) fun _ => spends_lastly (spends_call _) (spends_call _))

theorem spends_prepareSecretDirectory :
    Spends (prepareCalls store) (prepareSecretDirectory store : Prog σ Unit) := by
  unfold prepareCalls prepareSecretDirectory
  split
  · exact spends_call _
  · exact spends_bind (spends_call _) fun _ => spends_call _

theorem spends_finishRemoval :
    Spends (1 + (1 + (syncCalls store + (1 + syncCalls store))))
      (finishRemoval store : Prog σ Unit) :=
  spends_bind (spends_unlinkIfExists _) fun _ =>
    spends_bind (spends_unlinkIfExists _) fun _ =>
      spends_bind (spends_syncDirectory store) fun _ =>
        spends_bind (spends_unlinkIfExists _) fun _ => spends_syncDirectory store

theorem spends_writeTemporary (nonce contents : String) :
    Spends (temporaryCalls store) (writeTemporary store nonce contents) :=
  spends_bind (spends_call _) fun _ =>
    spends_lastly
      (spends_bind (spends_call _) fun _ =>
        spends_bind (spends_guarded (spends_call _)) fun _ => spends_call _)
      (spends_call _)

theorem recover_calls (w : World σ) :
    wp (recover store) (fun _ v => Spent (recoverCalls store w.disk) w.fates v.fates)
      (fun _ _ => True) (fun _ => True) w := by
  apply wp_bind
  apply wp_counted (spends_prepareSecretDirectory store)
  apply wp_still (touches_prepareSecretDirectory store)
  · intro _ v hv hs
    apply wp_bind
    apply wp_counted (spends_pathExists _)
    apply wp_pathExists
    · intro u hu hs'
      have hd : u.disk = w.disk := hu.2.trans hv.2
      rw [hv.2]
      unfold recoverCalls
      cases hm : (w.disk (removalMarker store)).isSome with
      | true =>
        refine wp_mono (spends_finishRemoval store u) ?_ (fun _ _ h => h) (fun _ h => h)
        exact fun _ t ht => hs.trans (hs'.trans ht)
      | false =>
        show wp (recoverBackup store) _ _ _ _
        apply wp_bind
        apply wp_counted (spends_pathExists _)
        apply wp_pathExists
        · intro t ht hs''
          rw [hd]
          cases hp : (w.disk (previousPath store)).isSome with
          | false => exact wp_pure (hs.trans (hs'.trans hs''))
          | true =>
            have hrest : Spends (1 + (1 + syncCalls store)) (do
                let hasFile ← Fs.pathExists (filePath store)
                settleBackup store hasFile
                syncDirectory store : Prog σ Unit) := by
              apply spends_bind (spends_pathExists _)
              intro b
              apply spends_bind _ fun _ => spends_syncDirectory store
              unfold settleBackup
              split
              · exact spends_call _
              · exact spends_call _
            refine wp_mono (hrest t) ?_ (fun _ _ h => h) (fun _ h => h)
            exact fun _ r hr => hs.trans (hs'.trans (hs''.trans hr))
        · exact fun _ _ => trivial
        · trivial
    · exact fun _ _ => trivial
    · trivial
  · exact fun _ _ _ => trivial
  · trivial

end Counting

section Replacing

open Prog

variable (nonce new : String) (R : Option File)

/-- The new record. -/
def written : File := { text := new, mode := 0o600 }

/-- The files stand for the previous record or for the new one. -/
def Safe (d : Disk) : Prop :=
  d (removalMarker store) = none ∧
    (current store d = R ∨ current store d = some (written new))

/-- The previous record is the backup. -/
structure Moved (d : Disk) : Prop where
  marker : d (removalMarker store) = none
  backup : d (previousPath store) = R
  stored : R.isSome = true
  file : d (filePath store) = none ∨ d (filePath store) = some (written new)

/-- What the `catch` block of `replaceSecretFile` relies on. -/
def Undoable (hasBackup : Bool) (d : Disk) : Prop :=
  Safe store new R d ∧ (hasBackup = true → Moved store new R d)

variable {store nonce new R}

theorem Moved.safe {d : Disk} (h : Moved store new R d) : Safe store new R d := by
  refine ⟨h.marker, ?_⟩
  rcases h.file with hf | hf
  · left
    rw [current, hf, h.backup, Option.none_or]
  · right
    rw [current, hf, Option.some_or]

theorem Moved.undoable {d : Disk} (h : Moved store new R d) (b : Bool) :
    Undoable store new R b d := ⟨h.safe, fun _ => h⟩

theorem safe_of_file {d : Disk} (hm : d (removalMarker store) = none)
    (h : d (filePath store) = some (written new)) : Safe store new R d := by
  refine ⟨hm, .inr ?_⟩
  rw [current, h, Option.some_or]

theorem safe_of_current {d : Disk} (hm : d (removalMarker store) = none)
    (h : current store d = R) : Safe store new R d := ⟨hm, .inl h⟩

/-- The temporary file is no part of the record. -/
theorem current_temporary {d : Disk} {f : Option File} :
    current store (d.set (temporaryPath store nonce) f) = current store d := by
  unfold current
  rw [Disk.set_other (temporary_ne_file store nonce).symm,
    Disk.set_other (temporary_ne_previous store nonce).symm]

theorem Safe.temporary {d : Disk} {f : Option File} (h : Safe store new R d) :
    Safe store new R (d.set (temporaryPath store nonce) f) := by
  unfold Safe
  rw [current_temporary, Disk.set_other (temporary_ne_marker store nonce).symm]
  exact h

/-- The record is the file, there is no backup, and the temporary file is written. -/
structure Prepared (store : Store) (nonce new : String) (R : Option File) (d : Disk) : Prop where
  marker : d (removalMarker store) = none
  file : d (filePath store) = R
  backup : d (previousPath store) = none
  temporary : d (temporaryPath store nonce) = some (written new)

theorem Prepared.safe {d : Disk} (h : Prepared store nonce new R d) : Safe store new R d := by
  apply safe_of_current h.marker
  rw [current, h.file, h.backup, Option.or_none]

theorem writeTemporary_prepared {w : World Bool} (hm : w.disk (removalMarker store) = none)
    (hf : w.disk (filePath store) = R) (hp : w.disk (previousPath store) = none) :
    wp (writeTemporary store nonce new)
      (fun _ v => v.vars = w.vars ∧ Prepared store nonce new R v.disk)
      (fun _ v => Safe store new R v.disk) (Safe store new R) w := by
  have hs : Safe store new R w.disk := by
    apply safe_of_current hm
    rw [current, hf, hp, Option.or_none]
  -- the temporary file alone has changed
  have prep : ∀ (f : File) (d : Disk), d = w.disk.set (temporaryPath store nonce) (some f) →
      f = written new → Prepared store nonce new R d := by
    rintro f d rfl rfl
    refine ⟨?_, ?_, ?_, Disk.set_same ..⟩
    · rw [Disk.set_other (temporary_ne_marker store nonce).symm, hm]
    · rw [Disk.set_other (temporary_ne_file store nonce).symm, hf]
    · rw [Disk.set_other (temporary_ne_previous store nonce).symm, hp]
  have twice : ∀ (f g : Option File),
      (w.disk.set (temporaryPath store nonce) f).set (temporaryPath store nonce) g =
        w.disk.set (temporaryPath store nonce) g := by
    intro f g
    funext n
    by_cases hn : n = temporaryPath store nonce
    · rw [hn, Disk.set_same, Disk.set_same]
    · rw [Disk.set_other hn, Disk.set_other hn, Disk.set_other hn]
  -- the handle is synced and closed
  have close : ∀ v : World Bool, v.vars = w.vars →
      v.disk = w.disk.set (temporaryPath store nonce) (some (written new)) →
      wp Fs.quiet
        (fun _ v => wp Fs.quiet
          (fun _ v => v.vars = w.vars ∧ Prepared store nonce new R v.disk)
          (fun _ v => Safe store new R v.disk) (Safe store new R) v)
        (fun _ v => wp Fs.quiet (fun _ v => Safe store new R v.disk)
          (fun _ v => Safe store new R v.disk) (Safe store new R) v) (Safe store new R) v := by
    intro v hv hd
    have hprep := prep _ _ hd rfl
    apply wp_still touches_quiet
    · intro _ u hu
      apply wp_still touches_quiet
      · intro _ t ht
        rw [ht.1, hu.1, hv, ht.2, hu.2]
        exact ⟨rfl, hprep⟩
      · intro _ t ht
        rw [ht.2, hu.2]
        exact hprep.safe
      · rw [hu.2]
        exact hprep.safe
    · intro _ u hu
      apply wp_still touches_quiet
      · exact fun _ t ht => ht.2 ▸ hu.2 ▸ hprep.safe
      · exact fun _ t ht => ht.2 ▸ hu.2 ▸ hprep.safe
      · exact hu.2 ▸ hprep.safe
    · exact hprep.safe
  have failed : ∀ v : World Bool, Safe store new R v.disk →
      wp Fs.quiet (fun _ v => Safe store new R v.disk)
        (fun _ v => Safe store new R v.disk) (Safe store new R) v := by
    intro v hv
    apply wp_still touches_quiet
    · exact fun _ u hu => hu.2 ▸ hv
    · exact fun _ u hu => hu.2 ▸ hv
    · exact hv
  apply wp_bind
  apply wp_openExclusive
  · intro v hv hd
    have hopen : v.disk (temporaryPath store nonce) = some { text := "", mode := 0o600 } := by
      rw [hd, Disk.set_same]
    have hvs : Safe store new R v.disk := by
      rw [hd]
      exact hs.temporary
    apply wp_lastly
    apply wp_bind
    apply wp_writeFile hopen
    · intro u hu hud
      have hu' : u.disk = w.disk.set (temporaryPath store nonce) (some (written new)) := by
        rw [hud, hd, twice]
        rfl
      have hus : Safe store new R u.disk := by
        rw [hu']
        exact hs.temporary
      apply wp_bind
      unfold guarded
      split
      · have hwritten : u.disk (temporaryPath store nonce) = some (written new) := by
          rw [hu', Disk.set_same]
        apply wp_fchmod hwritten
        · intro t ht htd
          apply close t (ht.trans (hu.trans hv))
          rw [htd, hu', twice]
          rfl
        · exact fun _ t ht => failed t (ht.2 ▸ hus)
        · exact hus
        · exact hus.temporary
      · exact wp_pure (close u (hu.trans hv) hu')
    · exact fun _ u hu => failed u (hu.2 ▸ hvs)
    · exact hvs
    · exact hvs.temporary
  · exact fun _ v hv => hv.2 ▸ hs
  · exact hs
  · exact hs.temporary

theorem Moved.still {d d' : Disk} (h : Moved store new R d) (hd : d' = d) :
    Moved store new R d' := hd ▸ h

/-- No call of `syncDirectory` tells of a missing file. -/
theorem syncDirectory_code (w : World Bool) :
    wp (syncDirectory store) (fun _ _ => True) (fun c _ => c = .other) (fun _ => True) w := by
  have one : ∀ (v : World Bool) {Q : Unit → World Bool → Prop} {E : Code → World Bool → Prop},
      (∀ u, Q () u) → (∀ u, E .other u) → wp Fs.quiet Q E (fun _ => True) v := by
    intro v Q E hq he
    apply wp_call
    · exact fun _ d fates _ => ⟨hq _, trivial⟩
    · intro c fates hop
      cases hop
    · exact fun fates => he _
    · trivial
  unfold syncDirectory guarded
  split
  · apply wp_bind
    apply one
    · intro v
      apply wp_lastly
      apply one
      · exact fun u => one u (fun _ => trivial) (fun _ => rfl)
      · exact fun u => one u (fun _ => rfl) (fun _ => rfl)
    · exact fun _ => rfl
  · exact wp_pure trivial

/-- What `syncDirectory` makes of a state that may be undone. -/
theorem syncDirectory_moved {w : World Bool} (h : Moved store new R w.disk) :
    wp (syncDirectory store) (fun _ v => Still w v ∧ Spent (syncCalls store) w.fates v.fates)
      (fun c v => c = .other ∧ Undoable store new R v.vars v.disk) (Safe store new R) w := by
  have hstill : wp (syncDirectory store)
      (fun _ v => Still w v ∧ Spent (syncCalls store) w.fates v.fates)
      (fun _ v => Undoable store new R v.vars v.disk) (Safe store new R) w := by
    apply wp_counted (spends_syncDirectory store)
    apply wp_still (touches_syncDirectory store)
    · exact fun _ v hv hs => ⟨hv, hs⟩
    · exact fun _ v hv => (h.still hv.2).undoable _
    · exact h.safe
  refine wp_mono (wp_and hstill (syncDirectory_code w)) (fun _ _ hq => hq.1) ?_ (fun _ hd => hd.1)
  exact fun _ _ he => ⟨he.2, he.1⟩

/-- A sync of which no call fails by its fate. -/
theorem syncDirectory_returns {w : World Bool} {Q : Unit → World Bool → Prop}
    {E : Code → World Bool → Prop} {D : Disk → Prop}
    (hx : ∀ i, i < syncCalls store → w.fates[i]? ≠ some .fails) (hq : ∀ v, Still w v → Q () v)
    (hd : D w.disk) : wp (syncDirectory store) Q E D w := by
  have one : ∀ (v : World Bool) {Q' : Unit → World Bool → Prop} {E' : Code → World Bool → Prop},
      v.fates[0]? ≠ some .fails → v.disk = w.disk →
      (∀ u, Still v u → u.fates = v.fates.drop 1 → Q' () u) → wp Fs.quiet Q' E' D v := by
    intro v Q' E' hne hvd hq'
    apply wp_call_exact
    · intro a d _ hop
      cases hop
      exact hq' _ ⟨rfl, rfl⟩ List.drop_one.symm
    · intro c _ hop
      cases hop
    · intro hf
      exact absurd (List.head?_eq_getElem?.symm.trans hf) hne
    · intro b _
      rw [hvd]
      refine ⟨hd, ?_⟩
      intro a d hop _
      cases hop
      exact hd
  unfold syncDirectory guarded
  split
  · rename_i hp
    have hthree : syncCalls store = 3 := if_pos hp
    rw [hthree] at hx
    apply wp_bind
    apply one w (hx 0 (by omega)) rfl
    intro v hv hfv
    apply wp_lastly
    apply one v _ hv.2
    · intro u hu hfu
      apply one u _ (hu.2.trans hv.2)
      · exact fun t ht _ => hq t ⟨ht.1.trans (hu.1.trans hv.1), ht.2.trans (hu.2.trans hv.2)⟩
      · rw [hfu, hfv, List.drop_drop, List.getElem?_drop]
        exact hx 2 (by omega)
    · rw [hfv, List.getElem?_drop]
      exact hx 1 (by omega)
  · exact wp_pure (hq w ⟨rfl, rfl⟩)

/-- The calls of `replaceBody` before the sync behind the removal of the backup. -/
def bodyCalls (store : Store) : Nat :=
  1 + (syncCalls store + (1 + (modeCalls store + (syncCalls store + 1))))

theorem moveToBackup_moved {w : World Bool} (hR : R.isSome = true)
    (h : Prepared store nonce new R w.disk) (hv : w.vars = false) :
    wp (moveToBackup store)
      (fun _ v => v.vars = true ∧ Moved store new R v.disk ∧ v.disk (filePath store) = none ∧
        v.disk (temporaryPath store nonce) = some (written new) ∧
        Spent (1 + syncCalls store) w.fates v.fates)
      (fun _ v => Undoable store new R v.vars v.disk) (Safe store new R) w := by
  obtain ⟨f, rfl⟩ := Option.isSome_iff_exists.mp hR
  -- behind the rename
  have moved : ∀ d : Disk, d = (w.disk.set (filePath store) none).set (previousPath store) (some f) →
      Moved store new (some f) d ∧ d (filePath store) = none ∧
        d (temporaryPath store nonce) = some (written new) := by
    rintro d rfl
    have hfile : ((w.disk.set (filePath store) none).set (previousPath store) (some f))
        (filePath store) = none := by
      rw [Disk.set_other (previous_ne_file store).symm, Disk.set_same]
    refine ⟨⟨?_, Disk.set_same .., hR, .inl hfile⟩, hfile, ?_⟩
    · rw [Disk.set_other (previous_ne_marker store).symm, Disk.set_other (marker_ne_file store),
        h.marker]
    · rw [Disk.set_other (temporary_ne_previous store nonce),
        Disk.set_other (temporary_ne_file store nonce), h.temporary]
  apply wp_catching
  apply wp_bind
  apply wp_counted (spends_call _)
  apply wp_rename
  · intro f' v hf' _ hd hs
    obtain rfl : f = f' := Option.some.inj (h.file.symm.trans hf')
    obtain ⟨hmoved, hnone, htmp⟩ := moved v.disk hd
    apply wp_bind
    apply wp_assign
    apply wp_mono (syncDirectory_moved (w := { v with vars := true }) hmoved)
    · intro _ u ⟨hu, hs'⟩
      rw [hu.1, hu.2]
      exact ⟨rfl, hmoved, hnone, htmp, hs.trans hs'⟩
    · rintro c u ⟨rfl, hu⟩
      exact wp_throw hu
    · exact fun _ hd => hd
  · intro v hnone _
    rw [h.file] at hnone
    cases hnone
  · intro v hv'
    refine ⟨hv'.2 ▸ h.safe, ?_⟩
    rw [hv'.1, hv]
    exact fun hb => absurd hb (by decide)
  · exact h.safe
  · exact fun f' hf' => by
      obtain rfl : f = f' := Option.some.inj (h.file.symm.trans hf')
      exact (moved _ rfl).1.safe

/-- The backup goes; the sync behind it must not fail. -/
theorem dropBackup_safe {w : World Bool} (hv : w.vars = true) (h : Moved store new R w.disk)
    (hf : w.disk (filePath store) = some (written new))
    (hx : ∀ i, i < syncCalls store → w.fates[1 + i]? ≠ some .fails) :
    wp (dropBackup store) (fun _ v => Safe store new R v.disk)
      (fun _ v => Undoable store new R v.vars v.disk) (Safe store new R) w := by
  have dropped : Safe store new R (w.disk.set (previousPath store) none) := by
    apply safe_of_file
    · rw [Disk.set_other (previous_ne_marker store).symm, h.marker]
    · rw [Disk.set_other (previous_ne_file store).symm, hf]
  apply wp_vars
  rw [hv, guarded, if_pos rfl]
  apply wp_bind
  apply wp_counted (spends_call _)
  apply wp_unlink
  · intro _ v _ _ hd hs
    apply syncDirectory_returns
    · intro i hi
      rw [hs.1, List.getElem?_drop]
      exact hx i hi
    · intro u hu
      rw [hu.2, hd]
      exact dropped
    · rw [hd]
      exact dropped
  · exact fun v _ hv' => (h.still hv'.2).undoable _
  · exact fun v hv' => (h.still hv'.2).undoable _
  · exact h.safe
  · exact fun _ _ => dropped

theorem replaceBody_safe {w : World Bool} (hR : R.isSome = true)
    (h : Prepared store nonce new R w.disk) (hv : w.vars = false)
    (hx : ∀ i, i < syncCalls store → w.fates[bodyCalls store + i]? ≠ some .fails) :
    wp (replaceBody store nonce) (fun _ v => Safe store new R v.disk)
      (fun _ v => Undoable store new R v.vars v.disk) (Safe store new R) w := by
  -- the new file is in its place and its mode is set
  have finish : ∀ v : World Bool, v.vars = true → Moved store new R v.disk →
      v.disk (filePath store) = some (written new) →
      Spent (1 + (syncCalls store + (1 + modeCalls store))) w.fates v.fates →
      wp (do
          syncDirectory store
          dropBackup store) (fun _ v => Safe store new R v.disk)
        (fun _ v => Undoable store new R v.vars v.disk) (Safe store new R) v := by
    intro v hvv hmoved hfile hs
    apply wp_bind
    apply wp_mono (syncDirectory_moved hmoved)
    · intro _ u ⟨hu, hs'⟩
      apply dropBackup_safe (hu.1.trans hvv) (hmoved.still hu.2) (by rw [hu.2, hfile])
      intro i hi
      have := hx i hi
      rw [(hs.trans hs').1, List.getElem?_drop]
      have hidx : 1 + (syncCalls store + (1 + modeCalls store)) + syncCalls store + (1 + i) =
          bodyCalls store + i := by
        unfold bodyCalls
        omega
      rw [hidx]
      exact this
    · exact fun _ _ he => he.2
    · exact fun _ hd => hd
  apply wp_bind
  refine wp_mono (moveToBackup_moved hR h hv) ?_ (fun _ _ he => he) (fun _ hd => hd)
  intro _ v ⟨hvv, hmoved, hnone, htmp, hs⟩
  -- behind the second rename
  have committed : ∀ d : Disk, d = (v.disk.set (temporaryPath store nonce) none).set (filePath store)
      (some (written new)) → Moved store new R d ∧ d (filePath store) = some (written new) := by
    rintro d rfl
    refine ⟨⟨?_, ?_, hR, .inr (Disk.set_same ..)⟩, Disk.set_same ..⟩
    · rw [Disk.set_other (marker_ne_file store),
        Disk.set_other (temporary_ne_marker store nonce).symm, hmoved.marker]
    · rw [Disk.set_other (previous_ne_file store),
        Disk.set_other (temporary_ne_previous store nonce).symm, hmoved.backup]
  apply wp_bind
  apply wp_counted (spends_call _)
  apply wp_rename
  · intro f u hf hu hd hs'
    obtain rfl : written new = f := Option.some.inj (htmp.symm.trans hf)
    obtain ⟨hm, hfile⟩ := committed u.disk hd
    have hsame : u.disk.set (filePath store) (some { written new with mode := 0o600 }) = u.disk := by
      funext n
      by_cases hn : n = filePath store
      · rw [hn, Disk.set_same, hfile]
        rfl
      · exact Disk.set_other hn
    have huv : u.vars = true := hu.trans hvv
    apply wp_bind
    apply wp_counted (spends_guarded (spends_call _))
    unfold guarded
    split
    · rename_i hp
      have hone : modeCalls store = 1 := if_pos hp
      apply wp_chmod
      · intro f t hf htv htd hs''
        obtain rfl : written new = f := Option.some.inj (hfile.symm.trans hf)
        rw [hsame] at htd
        apply finish t (htv.trans huv) (hm.still htd) (by rw [htd, hfile])
        have hcount : 1 + syncCalls store + 1 + 1 =
            1 + (syncCalls store + (1 + modeCalls store)) := by omega
        rw [← hcount]
        exact (hs.trans hs').trans hs''
      · exact fun _ t ht => (hm.still ht.2).undoable _
      · exact hm.safe
      · intro f hf
        obtain rfl : written new = f := Option.some.inj (hfile.symm.trans hf)
        rw [hsame]
        exact hm.safe
    · rename_i hp
      have hnone : modeCalls store = 0 := if_neg hp
      apply wp_pure
      intro hs''
      apply finish u huv hm hfile
      have hcount : 1 + syncCalls store + 1 =
          1 + (syncCalls store + (1 + modeCalls store)) := by omega
      rw [← hcount]
      exact hs.trans hs'
  · exact fun u _ hu => (hmoved.still hu.2).undoable _
  · exact fun u hu => (hmoved.still hu.2).undoable _
  · exact hmoved.safe
  · intro f hf
    obtain rfl : written new = f := Option.some.inj (htmp.symm.trans hf)
    exact (committed _ rfl).1.safe

theorem undo_safe {w : World Bool} (h : Undoable store new R w.vars w.disk) :
    wp (undo store) (fun _ v => Safe store new R v.disk) (fun _ _ => False) (Safe store new R) w := by
  apply wp_vars
  cases hv : w.vars with
  | false => exact wp_pure h.1
  | true =>
    have hm := h.2 hv
    -- whether the file went or not, the backup can still be moved back
    have unlinked : Moved store new R (w.disk.set (filePath store) none) := by
      refine ⟨?_, ?_, hm.stored, .inl (Disk.set_same ..)⟩
      · rw [Disk.set_other (marker_ne_file store), hm.marker]
      · rw [Disk.set_other (previous_ne_file store), hm.backup]
    have restored : ∀ (d : Disk) (f : File), Moved store new R d → d (previousPath store) = some f →
        Safe store new R ((d.set (previousPath store) none).set (filePath store) (some f)) := by
      intro d f hd hf
      apply safe_of_current
      · rw [Disk.set_other (marker_ne_file store), Disk.set_other (previous_ne_marker store).symm,
          hd.marker]
      · rw [current, Disk.set_same, Option.some_or, ← hf, hd.backup]
    have moveBack : ∀ v : World Bool, Moved store new R v.disk →
        wp (Fs.ignore (Fs.rename (previousPath store) (filePath store)))
          (fun _ v => Safe store new R v.disk) (fun _ _ => False) (Safe store new R) v := by
      intro v hvm
      apply wp_catching
      apply wp_rename
      · intro f u hf _ hd
        rw [hd]
        exact restored _ f hvm hf
      · exact fun u _ hu => wp_pure (hvm.still hu.2).safe
      · exact fun u hu => wp_pure (hvm.still hu.2).safe
      · exact hvm.safe
      · exact fun f hf => restored _ f hvm hf
    rw [guarded, if_pos rfl]
    apply wp_bind
    apply wp_catching
    apply wp_unlink
    · exact fun _ v _ _ hd => moveBack v (unlinked.still hd)
    · exact fun v _ hv' => wp_pure (moveBack v (hm.still hv'.2))
    · exact fun v hv' => wp_pure (moveBack v (hm.still hv'.2))
    · exact hm.safe
    · exact fun _ _ => unlinked.safe

/-- The temporary file is opened only where its name is free. -/
theorem writeTemporary_free (w : World Bool) :
    wp (writeTemporary store nonce new) (fun _ _ => w.disk (temporaryPath store nonce) = none)
      (fun _ _ => True) (fun _ => True) w := by
  apply wp_bind
  apply wp_call
  · intro _ d fates hop
    split at hop
    · cases hop
    · rename_i hfree
      exact ⟨wp_const hfree, trivial⟩
  · exact fun _ _ _ => trivial
  · exact fun _ => trivial
  · trivial

/-- The calls of `replaceSecretFile` before the sync behind the removal of the backup. -/
def replaceCalls (store : Store) : Nat := 1 + (temporaryCalls store + bodyCalls store)

theorem replaceSecretFile_safe {σ : Type} {w : World σ} (hR : R.isSome = true)
    (hm : w.disk (removalMarker store) = none) (hf : w.disk (filePath store) = R)
    (hp : w.disk (previousPath store) = none)
    (hx : w.disk (temporaryPath store nonce) = none →
      ∀ i, i < syncCalls store → w.fates[replaceCalls store + i]? ≠ some .fails) :
    wp (replaceSecretFile store nonce new) (fun _ v => Safe store new R v.disk)
      (fun _ v => Safe store new R v.disk) (Safe store new R) w := by
  have hs : Safe store new R w.disk := by
    apply safe_of_current hm
    rw [current, hf, hp, Option.or_none]
  have tidy : ∀ v : World Bool, Safe store new R v.disk →
      wp (Fs.ignore (Fs.unlink (temporaryPath store nonce)))
        (fun _ v => Safe store new R v.disk) (fun _ v => Safe store new R v.disk)
        (Safe store new R) v := by
    intro v hv
    apply wp_catching
    apply wp_unlink
    · intro _ u _ _ hd
      rw [hd]
      exact hv.temporary
    · exact fun u _ hu => wp_pure (hu.2 ▸ hv)
    · exact fun u hu => wp_pure (hu.2 ▸ hv)
    · exact hv
    · exact fun _ _ => hv.temporary
  apply wp_withLocals
  apply wp_bind
  apply wp_counted (spends_call _)
  apply wp_still touches_quiet
  · intro _ v hv hsv
    apply wp_bind
    apply wp_counted (spends_writeTemporary store nonce new)
    have hwrite := @writeTemporary_prepared store nonce new R v
      (by rw [hv.2, hm]) (by rw [hv.2, hf]) (by rw [hv.2, hp])
    refine wp_mono (wp_and hwrite (writeTemporary_free v)) ?_ (fun _ _ he => he.1)
      (fun _ hd => hd.1)
    intro _ u ⟨⟨huv, hprep⟩, hfree⟩ hsu
    rw [hv.2] at hfree
    apply wp_lastly
    apply wp_catching
    apply wp_mono (replaceBody_safe hR hprep (huv.trans hv.1) ?_)
    · exact fun _ t ht => tidy t ht
    · intro c t ht
      apply wp_bind
      refine wp_mono (undo_safe ht) ?_ (fun _ _ he => he.elim) (fun _ hd => hd)
      exact fun _ r hr => wp_throw (tidy r hr)
    · exact fun _ hd => hd
    · intro i hi
      rw [(hsv.trans hsu).1, List.getElem?_drop]
      have hidx : 1 + temporaryCalls store + (bodyCalls store + i) = replaceCalls store + i := by
        unfold replaceCalls
        omega
      rw [hidx]
      exact hx hfree i hi
  · exact fun _ v hv => hv.2 ▸ hs
  · exact hs

end Replacing

section Envelope

theorem secure_written (new : String) : secure store (written new) = true := by
  simp [secure, written]

theorem storedProfile_eq :
    (Json.parse (expectedProfile store)).getD .null = store.profile.val.normalize := by
  rw [expectedProfile, Json.parse_canonicalJson store.profile.property]
  rfl

theorem distinct_envelope (authorization : Value) :
    (envelope store authorization.val).Distinct := by
  refine .obj (by simp) ?_
  intro f hf
  simp only [List.mem_cons, List.not_mem_nil, or_false] at hf
  rcases hf with rfl | rfl | rfl
  · exact .num _
  · rw [storedProfile_eq]
    exact Json.distinct_normalize store.profile.property
  · exact authorization.property

/-- The file that `save` writes reads back as the authorization. -/
theorem readEnvelope_contents {authorization : Value}
    (h : validatePendingAuthorization store authorization.val = true) :
    readEnvelope store (contents store authorization.val) = .available authorization.val := by
  have hparse : Json.parse (contents store authorization.val) =
      some (envelope store authorization.val) := by
    apply Json.parse_stringify (distinct_envelope store authorization)
    intro c hc
    obtain rfl : c = Char.ofNat 10 := by simpa using hc
    rfl
  obtain ⟨fields, hfields⟩ : ∃ fields, store.profile.val.normalize = .obj fields := by
    have hobj := store.profile_isObject
    cases hp : store.profile.val with
    | obj fields =>
      rw [Json.normalize]
      exact ⟨_, rfl⟩
    | _ =>
      rw [hp] at hobj
      cases hobj
  have hversion : (envelope store authorization.val).get? "version" = some (.num 2) := rfl
  have hprofile : (envelope store authorization.val).get? "profile" = some (.obj fields) := by
    rw [← hfields, ← storedProfile_eq]
    rfl
  have hauthorization : (envelope store authorization.val).get? "authorization" =
      some authorization.val := rfl
  have hcanon : (Json.obj fields).canonicalJson = expectedProfile store := by
    rw [← hfields, Json.canonicalJson_normalize]
    rfl
  simp only [readEnvelope, hparse, hversion, hprofile, hauthorization, hcanon, bne_self_eq_false,
    Bool.false_eq_true, if_false, h, if_true]

end Envelope

section Saving

open Prog

variable {store} {authorization : Value} {nonce : String} {R : Option File}

theorem touches_recover {σ : Type} :
    Touches [filePath store, previousPath store, removalMarker store]
      (recover store : Prog σ Unit) := by
  have removal : Touches [filePath store, previousPath store, removalMarker store]
      (finishRemoval store : Prog σ Unit) :=
    touches_bind (touches_unlinkIfExists (by simp)) fun _ =>
      touches_bind (touches_unlinkIfExists (by simp)) fun _ =>
        touches_bind (touches_syncDirectory store) fun _ =>
          touches_bind (touches_unlinkIfExists (by simp)) fun _ => touches_syncDirectory store
  have backup : Touches [filePath store, previousPath store, removalMarker store]
      (recoverBackup store : Prog σ Unit) := by
    apply touches_bind (touches_pathExists _)
    intro b
    apply touches_guarded
    apply touches_bind (touches_pathExists _)
    intro hasFile
    apply touches_bind _ fun _ => touches_syncDirectory store
    unfold settleBackup
    split
    · exact touches_unlink (by simp)
    · exact touches_rename (by simp) (by simp)
  apply touches_bind (touches_prepareSecretDirectory store)
  intro _
  apply touches_bind (touches_pathExists _)
  intro b
  split
  · exact removal
  · exact backup

theorem temporary_untouched {d d' : Disk}
    (h : ∀ n, n ∉ [filePath store, previousPath store, removalMarker store] → d' n = d n) :
    d' (temporaryPath store nonce) = d (temporaryPath store nonce) := by
  apply h
  simp only [List.mem_cons, List.not_mem_nil, or_false, not_or]
  exact ⟨temporary_ne_file store nonce, temporary_ne_previous store nonce,
    temporary_ne_marker store nonce⟩

/-- The calls of `save` before the sync behind the removal of the backup. -/
def lastSync (store : Store) (d : Disk) : Nat := recoverCalls store d + replaceCalls store

/-- The record is the previous one, or the new one that `save` accepted. -/
def Kept (store : Store) (authorization : Value) (R : Option File) (d : Disk) : Prop :=
  view store d = R ∨
    (validatePendingAuthorization store authorization.val = true ∧
      view store d = some (written (contents store authorization.val)))

theorem kept_of_safe {d : Disk} (ha : validatePendingAuthorization store authorization.val = true)
    (h : Safe store (contents store authorization.val) R d) : Kept store authorization R d := by
  unfold Kept
  rw [view_of_marker_none store h.1]
  exact h.2.imp_right fun hn => ⟨ha, hn⟩

/-- `save` keeps the record or replaces it, where no call of the last sync fails. -/
theorem save_kept {w : World Unit} (h : view store w.disk = R) (hR : R.isSome = true)
    (hx : validatePendingAuthorization store authorization.val = true →
      w.disk (temporaryPath store nonce) = none →
      ∀ i, i < syncCalls store → w.fates[lastSync store w.disk + i]? ≠ some .fails) :
    Kept store authorization R (save store nonce authorization w).2.disk := by
  apply disk_of_wp (P := Kept store authorization R)
  apply wp_catching
  apply wp_bind
  have hrec := wp_and (recover_view store h) (wp_and (recover_calls store w) (touches_recover w))
  refine wp_mono hrec ?_ (fun _ _ he => wp_pure (.inl he.1)) (fun _ hd => .inl hd.1)
  intro _ v ⟨⟨hm, hf, hp⟩, hs, htouch⟩
  have hv : view store v.disk = R := by
    rw [view_of_marker_none store hm, current, hf, hp, Option.or_none]
  split
  · rename_i ha
    apply wp_bind
    apply wp_mono (replaceSecretFile_safe hR hm hf hp ?_)
    · exact fun _ _ hs => wp_pure (kept_of_safe ha hs)
    · exact fun _ _ hs => wp_pure (kept_of_safe ha hs)
    · exact fun _ hs => kept_of_safe ha hs
    · intro hfree i hi
      rw [temporary_untouched htouch.2] at hfree
      rw [hs.1, List.getElem?_drop, ← Nat.add_assoc]
      exact hx ha hfree i hi
  · exact wp_throw (wp_pure (.inl hv))

end Saving

section Losing

open Prog

variable {store} {nonce new : String} {d : Disk} {n : Nat} {rest : List Fate}
  (hposix : store.platform.isWindows = false)
include hposix

theorem syncDirectory_ready {σ : Type} {v : σ} :
    syncDirectory store (World.ready d (n + 3) rest v) = (.value (), World.ready d n rest v) := by
  unfold syncDirectory
  rw [hposix]
  rfl

theorem syncCalls_posix : syncCalls store = 3 := by
  unfold syncCalls
  rw [hposix]
  rfl

/-- One of the three calls fails. -/
theorem syncDirectory_failing {σ : Type} {v : σ} (hn : n < 3) :
    syncDirectory store (World.ready d n [.fails] v) = (.thrown .other, World.calm d v) := by
  unfold syncDirectory
  rw [hposix]
  match n, hn with
  | 0, _ => rfl
  | 1, _ => rfl
  | 2, _ => rfl

theorem recover_ready {σ : Type} {v : σ} (hm : d (removalMarker store) = none) :
    ∃ e, recover store (World.ready d (n + recoverCalls store d) rest v) =
      (.value (), World.ready e n rest v) := by
  have hprep : ∀ k, prepareSecretDirectory store (World.ready d (k + 2) rest v) =
      (.value (), World.ready d k rest v) := by
    intro k
    unfold prepareSecretDirectory
    rw [hposix]
    rfl
  unfold recoverCalls prepareCalls
  rw [hposix, hm, syncCalls_posix hposix]
  unfold recover recoverSecretFile recoverBackup
  cases hp : d (previousPath store) with
  | none =>
    refine ⟨d, ?_⟩
    rw [show n + ((if false = true then 1 else 2) + (1 + if (none : Option File).isSome = true then
        1 + (1 + (3 + (1 + 3))) else 1 + if (none : Option File).isSome = true then 1 + (1 + 3) else 0))
        = n + 4 from rfl, bind_of_value (hprep (n + 2)), bind_of_value (pathExists_ready _), hm]
    show (Fs.pathExists (previousPath store) >>= _) _ = _
    rw [bind_of_value (pathExists_ready _), hp]
    rfl
  | some f =>
    have hsettle : ∃ e, settleBackup store (d (filePath store)).isSome
        (World.ready d (n + 4) rest v) = (.value (), World.ready e (n + 3) rest v) := by
      unfold settleBackup
      split
      · exact ⟨_, unlink_ready hp⟩
      · exact ⟨_, rename_ready hp⟩
    obtain ⟨e, he⟩ := hsettle
    refine ⟨e, ?_⟩
    rw [show n + ((if false = true then 1 else 2) + (1 + if (none : Option File).isSome = true then
        1 + (1 + (3 + (1 + 3))) else 1 + if (some f).isSome = true then 1 + (1 + 3) else 0))
        = n + 9 from rfl, bind_of_value (hprep (n + 7)), bind_of_value (pathExists_ready _), hm]
    show (Fs.pathExists (previousPath store) >>= _) _ = _
    rw [bind_of_value (pathExists_ready _), hp, Option.isSome_some, guarded, if_pos rfl,
      bind_of_value (pathExists_ready _), bind_of_value he, syncDirectory_ready hposix]

theorem writeTemporary_ready {v : Bool} (hfree : d (temporaryPath store nonce) = none) :
    ∃ e, writeTemporary store nonce new (World.ready d (n + 5) rest v) =
      (.value (), World.ready e n rest v) := by
  have hwrite : ∀ e : Disk, (∃ f, e (temporaryPath store nonce) = some f) →
      ∃ e', (do
        Fs.writeFile (temporaryPath store nonce) new
        guarded (!store.platform.isWindows) (Fs.fchmod (temporaryPath store nonce) 0o600)
        Fs.quiet : Prog Bool Unit) (World.ready e (n + 4) rest v) =
        (.value (), World.ready e' (n + 1) rest v) := by
    intro e ⟨f, hf⟩
    have hf' : (e.set (temporaryPath store nonce) (some { f with text := new }))
        (temporaryPath store nonce) = some { f with text := new } := Disk.set_same ..
    rw [hposix]
    exact ⟨_, by rw [bind_of_value (writeFile_ready hf), Bool.not_false, guarded, if_pos rfl,
      bind_of_value (fchmod_ready hf'), quiet_ready]⟩
  obtain ⟨e, he⟩ := hwrite (d.set (temporaryPath store nonce) (some { text := "", mode := 0o600 }))
    ⟨_, Disk.set_same ..⟩
  refine ⟨e, ?_⟩
  unfold writeTemporary
  rw [bind_of_value (openExclusive_ready hfree), lastly, he]
  rfl

/-- The sync behind the removal of the backup fails. -/
theorem replaceBody_failing {f : File} (h : Prepared store nonce new (some f) d) (hn : n < 3) :
    ∃ e, replaceBody store nonce (World.ready d (n + 10) [.fails] false) =
        (.thrown .other, World.calm e true) ∧
      e (filePath store) = some (written new) ∧ e (previousPath store) = none ∧
      e (removalMarker store) = none := by
  have hne := previous_ne_file store
  -- the files behind each rename
  obtain ⟨d₁, hd₁⟩ : ∃ e, e = (d.set (filePath store) none).set (previousPath store) (some f) :=
    ⟨_, rfl⟩
  have hmove : moveToBackup store (World.ready d (n + 10) [.fails] false) =
      (.value (), World.ready d₁ (n + 6) [.fails] true) := by
    apply catching_of_value
    rw [bind_of_value (rename_ready h.file), ← hd₁]
    exact syncDirectory_ready hposix
  have htmp : d₁ (temporaryPath store nonce) = some (written new) := by
    rw [hd₁, Disk.set_other (temporary_ne_previous store nonce),
      Disk.set_other (temporary_ne_file store nonce), h.temporary]
  have hback : d₁ (previousPath store) = some f := by rw [hd₁, Disk.set_same]
  have hmark : d₁ (removalMarker store) = none := by
    rw [hd₁, Disk.set_other (previous_ne_marker store).symm, Disk.set_other (marker_ne_file store),
      h.marker]
  obtain ⟨d₂, hd₂⟩ : ∃ e, e = ((d₁.set (temporaryPath store nonce) none).set (filePath store)
      (some (written new))).set (filePath store) (some { written new with mode := 0o600 }) :=
    ⟨_, rfl⟩
  have hback₂ : d₂ (previousPath store) = some f := by
    rw [hd₂, Disk.set_other hne, Disk.set_other hne,
      Disk.set_other (temporary_ne_previous store nonce).symm, hback]
  have hfile₂ : d₂ (filePath store) = some (written new) := by
    rw [hd₂, Disk.set_same]
    rfl
  refine ⟨d₂.set (previousPath store) none, ?_, ?_, Disk.set_same .., ?_⟩
  · unfold replaceBody
    rw [bind_of_value hmove, bind_of_value (rename_ready htmp), hposix, Bool.not_false, guarded,
      if_pos rfl, bind_of_value (chmod_ready (Disk.set_same ..)), ← hd₂,
      bind_of_value (syncDirectory_ready hposix)]
    show (Fs.unlink (previousPath store) >>= _) _ = _
    rw [bind_of_value (unlink_ready hback₂), syncDirectory_failing hposix hn]
  · rw [Disk.set_other hne.symm, hfile₂]
  · rw [Disk.set_other (previous_ne_marker store).symm, hd₂, Disk.set_other (marker_ne_file store),
      Disk.set_other (marker_ne_file store), Disk.set_other (temporary_ne_marker store nonce).symm,
      hmark]

omit hposix in
/-- The `catch` block removes the new file and finds no backup to move back. -/
theorem undo_loses {e : Disk} {g : File} (hf : e (filePath store) = some g)
    (hp : e (previousPath store) = none) :
    undo store (World.calm e true) = (.value (), World.calm (e.set (filePath store) none) true) := by
  have hnone : (e.set (filePath store) none) (previousPath store) = none := by
    rw [Disk.set_other (previous_ne_file store), hp]
  show (Fs.ignore (Fs.unlink (filePath store)) >>= _) _ = _
  have hunlink : Fs.ignore (Fs.unlink (filePath store)) (World.calm e true) =
      (.value (), World.calm (e.set (filePath store) none) true) :=
    catching_of_value (unlink_calm e true hf)
  rw [bind_of_value hunlink]
  simp [Fs.ignore, Fs.rename, catching, call, perform, hnone, Prog.pure]

omit hposix in
theorem ignored_unlink (e : Disk) (v : Bool) (name : String) :
    Fs.ignore (Fs.unlink name) (World.calm e v) = (.value (), World.calm (e.set name none) v) := by
  cases h : e name with
  | none =>
    rw [Disk.set_none_of_none h]
    simp [Fs.ignore, catching, Fs.unlink, call, perform, h, Prog.pure]
  | some f => exact catching_of_value (unlink_calm e v h)

theorem replaceSecretFile_failing {f : File} (hm : d (removalMarker store) = none)
    (hf : d (filePath store) = some f) (hp : d (previousPath store) = none)
    (hfree : d (temporaryPath store nonce) = none) (hn : n < 3) :
    ∃ e, replaceSecretFile store nonce new (World.ready d (n + 16) [.fails] ()) =
        (.thrown .other, World.calm e ()) ∧ view store e = none := by
  obtain ⟨d₁, hwrite⟩ := @writeTemporary_ready store nonce new d (n + 10) [.fails] hposix false hfree
  have hprep := @writeTemporary_prepared store nonce new _
    (World.ready d (n + 10 + 5) [.fails] false) hm hf hp
  unfold wp at hprep
  rw [hwrite] at hprep
  obtain ⟨d₂, hbody, hfile₂, hback₂, hmark₂⟩ := replaceBody_failing hposix hprep.2 hn
  refine ⟨(d₂.set (filePath store) none).set (temporaryPath store nonce) none, ?_, ?_⟩
  · have hrun : (do
        Fs.quiet
        writeTemporary store nonce new
        lastly
          (catching (replaceBody store nonce) fun code => do
            undo store
            Prog.throw code)
          (Fs.ignore (Fs.unlink (temporaryPath store nonce))) : Prog Bool Unit)
        (World.ready d (n + 16) [.fails] false) =
        (.thrown .other,
          World.calm ((d₂.set (filePath store) none).set (temporaryPath store nonce) none) true) := by
      rw [bind_of_value quiet_ready, bind_of_value hwrite, lastly, catching_of_thrown hbody,
        bind_of_value (undo_loses hfile₂ hback₂), Prog.throw]
      simp only
      rw [ignored_unlink]
    unfold replaceSecretFile withLocals
    rw [hrun]
  · apply view_of_emptied
    refine ⟨?_, ?_⟩
    · rw [Disk.set_other (temporary_ne_file store nonce).symm, Disk.set_same]
    · rw [Disk.set_other (temporary_ne_previous store nonce).symm,
        Disk.set_other (previous_ne_file store), hback₂]

/-- `save` loses the record where a call of the last sync fails. -/
theorem save_loses {authorization : Value} (hR : (view store d).isSome = true)
    (ha : validatePendingAuthorization store authorization.val = true)
    (hfree : d (temporaryPath store nonce) = none) (hn : n < 3) :
    view store (save store nonce authorization
      (World.ready d (n + 16 + recoverCalls store d) [.fails] ())).2.disk = none := by
  have hm : d (removalMarker store) = none := by
    by_contra hne
    rw [view_of_pending store (Option.isSome_iff_ne_none.mpr hne)] at hR
    cases hR
  obtain ⟨f, hf⟩ := Option.isSome_iff_exists.mp hR
  obtain ⟨e, hrec⟩ := @recover_ready store d (n + 16) [.fails] hposix Unit () hm
  have hview := wp_and
    (recover_view store (w := World.ready d (n + 16 + recoverCalls store d) [.fails] ()) hf)
    (touches_recover _)
  unfold wp at hview
  rw [hrec] at hview
  obtain ⟨⟨hm', hf', hp'⟩, htouch⟩ := hview
  have hfree' : e (temporaryPath store nonce) = none :=
    (temporary_untouched htouch.2).trans hfree
  obtain ⟨e', hrun, hnone⟩ := @replaceSecretFile_failing store nonce
    (contents store authorization.val) _ n hposix _ hm' hf' hp' hfree' hn
  have hbody : (do
      recover store
      if validatePendingAuthorization store authorization.val then do
        replaceSecretFile store nonce (contents store authorization.val)
        Prog.pure SaveResult.saved
      else Prog.throw .other : Prog Unit SaveResult)
      (World.ready d (n + 16 + recoverCalls store d) [.fails] ()) =
      (.thrown .other, World.calm e' ()) := by
    rw [bind_of_value hrec, if_pos ha]
    exact bind_of_thrown hrun
  unfold save
  rw [catching_of_thrown hbody]
  exact hnone

end Losing

section Removed

open Prog

variable {store} {nonce : String} {authorization : Value}

theorem prepared_view {new : String} {d : Disk} (h : Prepared store nonce new none d) :
    view store d = none := view_of_emptied store ⟨h.file, h.backup⟩

theorem prepared_still {new : String} {R : Option File} {d d' : Disk}
    (h : Prepared store nonce new R d) (hd : d' = d) : Prepared store nonce new R d' := hd ▸ h

theorem touches_writeTemporary (store : Store) (nonce new : String) :
    Touches [temporaryPath store nonce] (writeTemporary store nonce new) :=
  touches_bind (touches_openExclusive (by simp)) fun _ =>
    touches_lastly
      (touches_bind (touches_writeFile (by simp)) fun _ =>
        touches_bind (touches_guarded (touches_fchmod (by simp))) fun _ => touches_quiet)
      touches_quiet

theorem touched_temporary {d d' : Disk}
    (h : ∀ n, n ∉ [temporaryPath store nonce] → d' n = d n) (hd : Emptied store d) :
    view store d' = none := by
  apply view_of_emptied
  refine ⟨?_, ?_⟩
  · rw [h _ (by simpa using (temporary_ne_file store nonce).symm), hd.1]
  · rw [h _ (by simpa using (temporary_ne_previous store nonce).symm), hd.2]

/-- The commit rename is the second call of `replaceBody` where there is nothing to back up. -/
theorem replaceBody_uncommitted {new : String} {w : World Bool}
    (h : Prepared store nonce new none w.disk) (hv : w.vars = false)
    (hx : ¬(Undisturbed 1 w.fates ∧
      (w.fates[1]? = none ∨ w.fates[1]? = some .done ∨ w.fates[1]? = some (.dies true)))) :
    wp (replaceBody store nonce) (fun _ _ => False)
      (fun _ v => v.vars = false ∧ Prepared store nonce new none v.disk)
      (Prepared store nonce new none) w := by
  apply wp_bind
  apply wp_catching
  apply wp_bind
  apply wp_call_exact
  · intro a d _ hop
    rw [h.file] at hop
    cases hop
  · intro c hh hop
    rw [h.file] at hop
    cases hop
    have hone : Undisturbed 1 w.fates := by
      intro i hi
      obtain rfl : i = 0 := by omega
      rwa [← List.head?_eq_getElem?]
    have hhead : w.fates.tail.head? = w.fates[1]? := by
      rw [List.head?_eq_getElem?, List.getElem?_tail]
    apply wp_pure
    apply wp_bind
    apply wp_call_exact
    · intro a d hh' _
      rw [hhead] at hh'
      exact (hx ⟨hone, hh'.imp_right .inl⟩).elim
    · exact fun c _ _ => ⟨hv, h⟩
    · exact fun _ => ⟨hv, h⟩
    · intro b hb
      refine ⟨h, ?_⟩
      rintro a d - rfl
      rw [hhead] at hb
      exact (hx ⟨hone, .inr (.inr hb)⟩).elim
  · exact fun _ => ⟨hv, h⟩
  · intro b _
    refine ⟨h, ?_⟩
    intro a d hop
    rw [h.file] at hop
    cases hop

/-- The calls of `save` before its commit rename, where there is nothing to back up. -/
def commitCall (store : Store) (d : Disk) : Nat :=
  recoverCalls store d + (1 + temporaryCalls store) + 1

/-- The commit rename of `save` takes effect. -/
def Commits (store : Store) (nonce : String) (authorization : Value) (fates : List Fate)
    (d : Disk) : Prop :=
  validatePendingAuthorization store authorization.val = true ∧
    d (temporaryPath store nonce) = none ∧ Undisturbed (commitCall store d) fates ∧
    (fates[commitCall store d]? = none ∨ fates[commitCall store d]? = some .done ∨
      fates[commitCall store d]? = some (.dies true))

theorem replaceSecretFile_uncommitted {σ : Type} {new : String} {w : World σ}
    (hm : w.disk (removalMarker store) = none) (hf : w.disk (filePath store) = none)
    (hp : w.disk (previousPath store) = none)
    (hx : ¬(w.disk (temporaryPath store nonce) = none ∧
      Undisturbed (1 + temporaryCalls store + 1) w.fates ∧
      (w.fates[1 + temporaryCalls store + 1]? = none ∨
        w.fates[1 + temporaryCalls store + 1]? = some .done ∨
        w.fates[1 + temporaryCalls store + 1]? = some (.dies true)))) :
    wp (replaceSecretFile store nonce new) (fun _ v => view store v.disk = none)
      (fun _ v => view store v.disk = none) (fun d => view store d = none) w := by
  have hview : view store w.disk = none := view_of_emptied store ⟨hf, hp⟩
  have tidy : ∀ v : World Bool, Prepared store nonce new none v.disk →
      wp (Fs.ignore (Fs.unlink (temporaryPath store nonce)))
        (fun _ v => view store v.disk = none) (fun _ v => view store v.disk = none)
        (fun d => view store d = none) v := by
    intro v hv
    have gone : view store (v.disk.set (temporaryPath store nonce) none) = none := by
      apply view_of_emptied
      refine ⟨?_, ?_⟩
      · rw [Disk.set_other (temporary_ne_file store nonce).symm, hv.file]
      · rw [Disk.set_other (temporary_ne_previous store nonce).symm, hv.backup]
    apply wp_catching
    apply wp_unlink
    · intro _ u _ _ hd
      rw [hd]
      exact gone
    · exact fun u _ hu => wp_pure (prepared_view (prepared_still hv hu.2))
    · exact fun u hu => wp_pure (prepared_view (prepared_still hv hu.2))
    · exact prepared_view hv
    · exact fun _ _ => gone
  apply wp_withLocals
  apply wp_bind
  apply wp_counted (spends_call _)
  apply wp_still touches_quiet
  · intro _ v hv hsv
    apply wp_bind
    apply wp_counted (spends_writeTemporary store nonce new)
    have hwrite := @writeTemporary_prepared store nonce new none v
      (by rw [hv.2, hm]) (by rw [hv.2, hf]) (by rw [hv.2, hp])
    -- before the temporary file is complete, its name is all that may have changed
    refine wp_mono (wp_and hwrite (wp_and (writeTemporary_free v)
      (touches_writeTemporary store nonce new v))) ?_ ?_ ?_
    · intro _ u ⟨⟨huv, hprep⟩, hfree, _⟩ hsu
      rw [hv.2] at hfree
      have hspent := hsv.trans hsu
      apply wp_lastly
      apply wp_catching
      apply wp_mono (replaceBody_uncommitted hprep (huv.trans hv.1) ?_)
      · exact fun _ _ hq => hq.elim
      · intro c t ⟨htv, ht⟩
        apply wp_bind
        apply wp_vars
        rw [htv]
        exact wp_pure (wp_throw (tidy t ht))
      · exact fun _ hd => prepared_view hd
      · intro ⟨hone, hnext⟩
        rw [hspent.1] at hone hnext
        rw [List.getElem?_drop] at hnext
        exact hx ⟨hfree, undisturbed_add hspent.2 hone, hnext⟩
    · intro c u ⟨_, _, hu⟩
      exact touched_temporary hu.2 (by rw [hv.2]; exact ⟨hf, hp⟩)
    · intro d ⟨_, _, hd⟩
      exact touched_temporary hd (by rw [hv.2]; exact ⟨hf, hp⟩)
  · exact fun _ v hv => hv.2 ▸ hview
  · exact hview

theorem save_uncommitted {w : World Unit} (h : view store w.disk = none)
    (hx : ¬Commits store nonce authorization w.fates w.disk) :
    view store (save store nonce authorization w).2.disk = none := by
  apply disk_of_wp (P := fun d => view store d = none)
  apply wp_catching
  apply wp_bind
  have hrec := wp_and (recover_view store h) (wp_and (recover_calls store w) (touches_recover w))
  refine wp_mono hrec ?_ (fun _ _ he => wp_pure he.1) (fun _ hd => hd.1)
  intro _ v ⟨⟨hm, hf, hp⟩, hs, htouch⟩
  split
  · rename_i ha
    apply wp_bind
    apply wp_mono (replaceSecretFile_uncommitted hm hf hp ?_)
    · exact fun _ _ hq => wp_pure hq
    · exact fun _ _ he => wp_pure he
    · exact fun _ hd => hd
    · intro ⟨hfree, hcalls, hnext⟩
      rw [temporary_untouched htouch.2] at hfree
      rw [hs.1] at hcalls hnext
      have hall := undisturbed_add hs.2 hcalls
      rw [List.getElem?_drop] at hnext
      rw [show recoverCalls store w.disk + (1 + temporaryCalls store + 1) =
        commitCall store w.disk from rfl] at hall hnext
      exact hx ⟨ha, hfree, hall, hnext⟩
  · exact wp_throw (wp_pure (view_of_emptied store ⟨hf, hp⟩))

/-- Once it is opened, the marker stays. -/
theorem writeSecretRemovalMarker_view {w : World Unit} (h : view store w.disk = none) :
    wp (writeSecretRemovalMarker store) (fun _ v => view store v.disk = none)
      (fun _ v => view store v.disk = none) (fun d => view store d = none) w := by
  have marked : ∀ (d : Disk) (f : File),
      view store (d.set (removalMarker store) (some f)) = none := by
    intro d f
    apply view_of_pending
    rw [Disk.set_same]
    rfl
  have quiet : ∀ {p : Prog Unit Unit} (v : World Unit), Touches [] p → view store v.disk = none →
      wp p (fun _ v => view store v.disk = none) (fun _ v => view store v.disk = none)
        (fun d => view store d = none) v := by
    intro p v hp hv
    exact wp_still hp (fun _ _ hu => hu.2 ▸ hv) (fun _ _ hu => hu.2 ▸ hv) hv
  -- a call on the marker leaves it or sets it
  have onMarker : ∀ {op : Op Unit} (v : World Unit), view store v.disk = none →
      (∀ d a d', op d = .ok (a, d') → d' = d ∨ ∃ f, d' = d.set (removalMarker store) (some f)) →
      wp (call op : Prog Unit Unit) (fun _ v => view store v.disk = none)
        (fun _ v => view store v.disk = none) (fun d => view store d = none) v := by
    intro op v hv hop
    have after : ∀ a d', op v.disk = .ok (a, d') → view store d' = none := by
      intro a d' he
      rcases hop _ _ _ he with rfl | ⟨f, rfl⟩
      · exact hv
      · exact marked _ f
    apply wp_call
    · exact fun a d fates he => ⟨after a d he, after a d he⟩
    · exact fun _ _ _ => hv
    · exact fun _ => hv
    · exact hv
  apply wp_bind
  refine wp_mono (quiet w touches_quiet h) ?_ (fun _ _ he => he) (fun _ hd => hd)
  intro _ v hv
  apply wp_bind
  refine wp_mono (onMarker v hv ?_) ?_ (fun _ _ he => he) (fun _ hd => hd)
  · intro d a d' hop
    split at hop
    · cases hop
      exact .inr ⟨_, rfl⟩
    · cases hop
      exact .inr ⟨_, rfl⟩
  · intro _ u hu
    apply wp_bind
    apply wp_lastly
    have close : ∀ t : World Unit, view store t.disk = none →
        wp Fs.quiet (fun _ v => view store v.disk = none) (fun _ v => view store v.disk = none)
          (fun d => view store d = none) t := fun t ht => quiet t touches_quiet ht
    have body : wp (do
        Fs.writeFile (removalMarker store) "delete\n"
        guarded (!store.platform.isWindows) (Fs.fchmod (removalMarker store) 0o600)
        Fs.quiet : Prog Unit Unit) (fun _ v => view store v.disk = none)
        (fun _ v => view store v.disk = none) (fun d => view store d = none) u := by
      apply wp_bind
      refine wp_mono (onMarker u hu ?_) ?_ (fun _ _ he => he) (fun _ hd => hd)
      · intro d a d' hop
        split at hop
        · cases hop
          exact .inr ⟨_, rfl⟩
        · cases hop
          exact .inl rfl
      · intro _ t ht
        apply wp_bind
        unfold guarded
        split
        · refine wp_mono (onMarker t ht ?_) (fun _ r hr => close r hr) (fun _ _ he => he)
            (fun _ hd => hd)
          intro d a d' hop
          split at hop
          · cases hop
            exact .inr ⟨_, rfl⟩
          · cases hop
            exact .inl rfl
        · exact wp_pure (close t ht)
    refine wp_mono body ?_ ?_ (fun _ hd => hd)
    · intro _ t ht
      refine wp_mono (close t ht) ?_ (fun _ _ he => he) (fun _ hd => hd)
      exact fun _ r hr => quiet r (touches_syncDirectory store) hr
    · exact fun _ t ht => close t ht

theorem remove_keeps_empty {w : World Unit} (h : view store w.disk = none) :
    view store (remove store w).2.disk = none := by
  apply disk_of_wp (P := fun d => view store d = none)
  apply wp_catching
  apply wp_bind
  apply wp_still (touches_prepareSecretDirectory store)
  · intro _ v hv
    apply wp_bind
    refine wp_mono (writeSecretRemovalMarker_view (w := v) (hv.2 ▸ h)) ?_
      (fun _ _ he => wp_pure he) (fun _ hd => hd)
    intro _ u hu
    apply wp_bind
    refine wp_mono (finishRemoval_view store hu) ?_ (fun _ _ he => wp_pure he) (fun _ hd => hd)
    exact fun _ t ht => wp_pure (view_of_emptied store ht.1)
  · exact fun _ v hv => wp_pure (hv.2 ▸ h)
  · exact h

/-- A use of the store by a process whose calls have these fates. -/
inductive Use where
  /-- The rest of the `remove` that wrote the marker. -/
  | finishRemoval (fates : List Fate)
  | load (fates : List Fate)
  | remove (fates : List Fate)
  | save (nonce : String) (authorization : Value) (fates : List Fate)

def useStore (store : Store) (d : Disk) : Use → Option (Disk × Unit)
  | .finishRemoval fates =>
    some ((PendingAuthorization.finishRemoval store { disk := d, fates := fates, vars := () }).2.disk,
      ())
  | .load fates =>
    some ((PendingAuthorization.load store { disk := d, fates := fates, vars := () }).2.disk, ())
  | .remove fates =>
    some ((PendingAuthorization.remove store { disk := d, fates := fates, vars := () }).2.disk, ())
  | .save nonce authorization fates =>
    some ((PendingAuthorization.save store nonce authorization
      { disk := d, fates := fates, vars := () }).2.disk, ())

/-- Every `save` fails or dies before its commit rename takes effect. -/
def Uncommitted (store : Store) (d : Disk) : Use → Prop
  | .save nonce authorization fates => ¬Commits store nonce authorization fates d
  | _ => True

theorem useStore_view {d d' : Disk} {u : Use} (h : view store d = none)
    (hu : Uncommitted store d u) (hstep : useStore store d u = some (d', ())) :
    view store d' = none := by
  cases u with
  | finishRemoval fates =>
    cases hstep
    apply disk_of_wp (P := fun d => view store d = none)
    refine wp_mono (finishRemoval_view store h) ?_ (fun _ _ he => he) (fun _ hd => hd)
    exact fun _ t ht => view_of_emptied store ht.1
  | load fates =>
    cases hstep
    exact load_keeps_view store h
  | remove fates =>
    cases hstep
    exact remove_keeps_empty h
  | save nonce authorization fates =>
    cases hstep
    exact save_uncommitted h hu

end Removed

/-- One call of the sync behind the removal of the backup fails: the record is lost. -/
def LosesRecord (store : Store) (nonce : String) (authorization : Value) (d : Disk) (k : Nat)
    (x : Fate) : Prop :=
  x = .fails ∧ lastSync store d ≤ k ∧ k < lastSync store d + syncCalls store ∧
    validatePendingAuthorization store authorization.val = true ∧
    d (temporaryPath store nonce) = none

/-- The fates of a `save` of which the `k`-th call is disturbed. -/
def disturbed (k : Nat) (x : Fate) : List Fate := List.replicate k .done ++ [x]

theorem disturbed_getElem? {k i : Nat} {x : Fate} (h : (disturbed k x)[i]? = some .fails) :
    i = k ∧ x = .fails := by
  unfold disturbed at h
  rcases lt_trichotomy i k with hlt | rfl | hgt
  · rw [List.getElem?_append_left (by simpa using hlt), List.getElem?_replicate, if_pos hlt] at h
    cases h
  · rw [List.getElem?_append_right (by simp)] at h
    simp only [List.length_replicate, Nat.sub_self, List.getElem?_cons_zero, Option.some.injEq] at h
    exact ⟨rfl, h⟩
  · rw [List.getElem?_eq_none (by simp; omega)] at h
    cases h

theorem save_kept_iff (store : Store) (nonce : String) (authorization : Value) (d : Disk) (k : Nat)
    (x : Fate) {previous : Json} (hload : laterLoad store d = .value (.available previous)) :
    (laterLoad store (save store nonce authorization
        { disk := d, fates := disturbed k x, vars := () }).2.disk = .value (.available previous) ∨
      laterLoad store (save store nonce authorization
        { disk := d, fates := disturbed k x, vars := () }).2.disk =
          .value (.available authorization.val)) ↔
    ¬LosesRecord store nonce authorization d k x := by
  rw [load_view store d] at hload
  have hread : reading store (view store d) = .available previous := Outcome.value.inj hload
  have hR : (view store d).isSome = true := by
    rw [Option.isSome_iff_ne_none]
    intro hnone
    rw [hnone] at hread
    cases hread
  rw [load_view]
  constructor
  · rintro hkept ⟨rfl, hle, hlt, ha, hfree⟩
    have hposix : store.platform.isWindows = false := by
      by_contra hw
      have : syncCalls store = 0 := by
        unfold syncCalls
        rw [Bool.not_eq_false] at hw
        rw [hw]
        rfl
      omega
    rw [syncCalls_posix hposix] at hlt
    have hcount : lastSync store d = recoverCalls store d + 16 := by
      unfold lastSync replaceCalls bodyCalls temporaryCalls modeCalls
      rw [syncCalls_posix hposix, hposix]
      rfl
    obtain ⟨i, rfl⟩ : ∃ i, k = i + 16 + recoverCalls store d :=
      ⟨k - lastSync store d, by omega⟩
    have hlost := @save_loses store nonce d i hposix authorization hR ha hfree (by omega)
    have hfates : disturbed (i + 16 + recoverCalls store d) .fails =
        List.replicate (i + 16 + recoverCalls store d) .done ++ [.fails] := rfl
    rw [hfates, hlost] at hkept
    rcases hkept with h | h
    · cases h
    · cases h
  · intro hsafe
    have hkept := @save_kept store authorization nonce _
      { disk := d, fates := disturbed k x, vars := () } rfl hR ?_
    · rcases hkept with h | ⟨ha, h⟩
      · left
        rw [h, hread]
      · right
        rw [h, reading, secure_written, if_pos rfl]
        exact congrArg _ (readEnvelope_contents store ha)
    · intro ha hfree i hi hfails
      obtain ⟨hk, hx⟩ := disturbed_getElem? (i := lastSync store d + i) hfails
      exact hsafe ⟨hx, by omega, by omega, ha, hfree⟩

theorem removed_stays_empty {store : Store} {d₀ d : Disk} {tr : List (Entry Disk Use Unit)}
    (hmarker : (d₀ (removalMarker store)).isSome = true) (hrun : Run (useStore store) d₀ tr d)
    (hok : ∀ e ∈ tr, Uncommitted store e.pre e.event) : laterLoad store d = .value .empty := by
  have hview : view store d = none := by
    refine hrun.invariant (C := Uncommitted store) (I := fun d => view store d = none)
      (view_of_pending store hmarker) ?_ hok
    exact fun _ _ _ _ h hu hstep => useStore_view h hu hstep
  rw [load_view, hview]
  rfl

/-- A `save` of one disturbed call keeps the previous authorization or the new one unless that call
is one of the sync behind the removal of the backup; and once the removal marker is there, `load`
tells `empty` whatever is disturbed, as long as no commit rename of a `save` takes effect. -/
theorem pending_authorization_is_atomic (store : Store) :
    (∀ (nonce : String) (authorization : Value) (d : Disk) (k : Nat) (x : Fate) (previous : Json),
      laterLoad store d = .value (.available previous) →
      ((laterLoad store (save store nonce authorization
          { disk := d, fates := disturbed k x, vars := () }).2.disk = .value (.available previous) ∨
        laterLoad store (save store nonce authorization
          { disk := d, fates := disturbed k x, vars := () }).2.disk =
            .value (.available authorization.val)) ↔
        ¬LosesRecord store nonce authorization d k x)) ∧
    (∀ (d₀ d : Disk) (tr : List (Entry Disk Use Unit)),
      (d₀ (removalMarker store)).isSome = true → Run (useStore store) d₀ tr d →
      (∀ e ∈ tr, Uncommitted store e.pre e.event) → laterLoad store d = .value .empty) := by
  constructor
  · intro nonce authorization d k x previous hload
    exact save_kept_iff store nonce authorization d k x hload
  · intro d₀ d tr hmarker hrun hok
    exact removed_stays_empty hmarker hrun hok

def sampleAuthorization (deviceName : String) : Json :=
  .obj [("phase", .str "prepared"), ("codeVerifier", .str "v"), ("codeChallenge", .str "c"),
    ("exchangeTransactionId", .str "00000000-0000-4000-8000-000000000000"),
    ("installationId", .str "i"), ("deviceName", .str deviceName), ("platform", .str "linux"),
    ("clientVersion", .str "1")]

theorem sampleAuthorization_distinct (deviceName : String) :
    (sampleAuthorization deviceName).Distinct := by
  refine .obj (by simp) ?_
  intro f hf
  simp only [List.mem_cons, List.not_mem_nil, or_false] at hf
  rcases hf with rfl | rfl | rfl | rfl | rfl | rfl | rfl | rfl <;> exact .str _

def sampleStore : Store where
  base := "pending.json"
  platform := .linux
  profile := sampleProfile
  profile_isObject := sampleProfile_isObject
  origin := "https://yuance.example"
  parseUrl := fun _ => none

def sampleOld : Value := ⟨sampleAuthorization "old", sampleAuthorization_distinct "old"⟩

def sampleNew : Value := ⟨sampleAuthorization "new", sampleAuthorization_distinct "new"⟩

def sampleDisk : Disk :=
  fun n => if n = "pending.json" then some (written (contents sampleStore sampleOld.val)) else none

/-- The disk of a `remove` that died behind its marker. -/
def sampleRemoval : Disk :=
  fun n => if n = "pending.json.delete" then some (written "delete\n") else sampleDisk n

theorem sampleDisk_load :
    laterLoad sampleStore sampleDisk = .value (.available sampleOld.val) := by
  have hview : view sampleStore sampleDisk =
      some (written (contents sampleStore sampleOld.val)) := rfl
  rw [load_view, hview, reading, secure_written, if_pos rfl]
  exact congrArg _ (@readEnvelope_contents sampleStore sampleOld (by decide))

def sampleUses : List Use :=
  [.finishRemoval [.done, .dies true], .save "00" sampleNew [.fails], .load []]

theorem sampleUses_uncommitted (d : Disk) (u : Use) (hu : u ∈ sampleUses) :
    Uncommitted sampleStore d u := by
  simp only [sampleUses, List.mem_cons, List.not_mem_nil, or_false] at hu
  rcases hu with rfl | rfl | rfl
  · trivial
  · rintro ⟨-, -, hcalls, -⟩
    have := hcalls 0 (by unfold commitCall; omega)
    simp at this
  · trivial

theorem save_dies_behind_its_commit :
    (laterLoad sampleStore (save sampleStore "00" sampleNew
        { disk := sampleDisk, fates := disturbed 14 (.dies true), vars := () }).2.disk =
          .value (.available sampleOld.val) ∨
      laterLoad sampleStore (save sampleStore "00" sampleNew
        { disk := sampleDisk, fates := disturbed 14 (.dies true), vars := () }).2.disk =
          .value (.available sampleNew.val)) ∧
    ∃ tr d, exec (useStore sampleStore) sampleRemoval sampleUses = some (tr, d) ∧
      laterLoad sampleStore d = .value .empty := by
  constructor
  · refine ((pending_authorization_is_atomic sampleStore).1 "00" sampleNew sampleDisk 14 (.dies true)
      sampleOld.val sampleDisk_load).mpr ?_
    rintro ⟨h, -⟩
    cases h
  · obtain ⟨r, hr⟩ : ∃ r, exec (useStore sampleStore) sampleRemoval sampleUses = some r := ⟨_, rfl⟩
    refine ⟨r.1, r.2, hr, ?_⟩
    refine (pending_authorization_is_atomic sampleStore).2 sampleRemoval r.2 r.1 rfl
      (run_of_exec hr) ?_
    intro e he
    exact sampleUses_uncommitted _ _ (event_of_exec hr he)

theorem directory_sync_loses_the_record :
    (laterLoad sampleStore sampleDisk = .value (.available sampleOld.val) ∧
      laterLoad sampleStore (save sampleStore "00" sampleNew
        { disk := sampleDisk, fates := disturbed 20 .fails, vars := () }).2.disk =
          .value .empty) ∧
    ((sampleRemoval (removalMarker sampleStore)).isSome = true ∧
      (save sampleStore "00" sampleNew
        { disk := sampleRemoval, fates := disturbed 20 .fails, vars := () }).1 =
          .value (.locked "write_failed") ∧
      laterLoad sampleStore (save sampleStore "00" sampleNew
        { disk := sampleRemoval, fates := disturbed 20 .fails, vars := () }).2.disk =
          .value (.available sampleNew.val)) := by
  refine ⟨⟨sampleDisk_load, ?_⟩, rfl, rfl, ?_⟩
  · have hview : view sampleStore (save sampleStore "00" sampleNew
        { disk := sampleDisk, fates := disturbed 20 .fails, vars := () }).2.disk = none := rfl
    rw [load_view, hview]
    rfl
  · have hview : view sampleStore (save sampleStore "00" sampleNew
        { disk := sampleRemoval, fates := disturbed 20 .fails, vars := () }).2.disk =
          some (written (contents sampleStore sampleNew.val)) := rfl
    rw [load_view, hview, reading, secure_written, if_pos rfl]
    exact congrArg _ (@readEnvelope_contents sampleStore sampleNew (by decide))

end PendingAuthorization
end Auth
end Yuance
