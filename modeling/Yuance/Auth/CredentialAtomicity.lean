import Yuance.Auth.CredentialStore

/-!
# Yuance.Auth.CredentialAtomicity

What the credential file holds when the calls of `save` fail or the process dies.

`view` is the record that the files of the directory stand for: none behind a removal marker, else the
target or, on Windows, the backup that `recoverWindowsReplace` would move back. `load` returns what
`reading` makes of it. `save` keeps the record or replaces it, whatever becomes of its calls.

* `load_view`: what a later `load` returns.
* `recover_view`: recovery keeps the record.
* `At`: what the flags of `atomicReplace` say about the files.
* `save_is_crash_atomic`: a later `load` returns the previous record or the new one.
-/

namespace Yuance
namespace Auth
namespace CredentialStore

open Lib

variable (store : Store)

/-- `load` does not refuse the file for its permissions. -/
def secure (file : File) : Bool := store.platform.isWindows || file.mode &&& 0o077 == 0

/-- What `load` makes of the record. -/
def reading : Option File → LoadResult
  | none => .empty
  | some file =>
    if secure store file then readEnvelope store file.text else .locked "insecure_permissions"

def current (d : Disk) : Option File :=
  (d (targetPath store)).or (if store.platform.isWindows then d (previousPath store) else none)

def view (d : Disk) : Option File :=
  if (d (markerPath store)).isSome then none else current store d

theorem previous_ne_target : previousPath store ≠ targetPath store :=
  (append_ne_self (by decide)).symm

theorem marker_ne_target : markerPath store ≠ targetPath store :=
  (append_ne_self (by decide)).symm

theorem previous_ne_marker : previousPath store ≠ markerPath store :=
  ne_of_ends 's' 'e' rfl rfl (by decide)

theorem temporary_ne_target (nonce : String) : temporaryPath store nonce ≠ targetPath store :=
  ne_of_longer (by simp [temporaryPath, targetPath])

theorem temporary_ne_marker (nonce : String) : temporaryPath store nonce ≠ markerPath store :=
  ne_of_ends 'p' 'e' rfl rfl (by decide)

theorem backup_ne_target (nonce : String) : backupPath store nonce ≠ targetPath store := by
  unfold backupPath
  split
  · exact previous_ne_target store
  · exact ne_of_longer (by simp [targetPath])

theorem backup_ne_marker (nonce : String) : backupPath store nonce ≠ markerPath store := by
  unfold backupPath
  split
  · exact previous_ne_marker store
  · exact ne_of_ends 'k' 'e' rfl rfl (by decide)

theorem temporary_ne_backup (nonce : String) :
    temporaryPath store nonce ≠ backupPath store nonce := by
  unfold backupPath
  split
  · exact ne_of_ends 'p' 's' rfl rfl (by decide)
  · exact ne_of_ends 'p' 'k' rfl rfl (by decide)

section Recovery

open Prog

variable {σ : Type} {w : World σ} {R : Option File}

theorem touches_syncDirectory {S : List String} :
    Touches S (syncDirectory store : Prog σ Unit) :=
  touches_guarded (touches_bind touches_quiet fun _ => touches_lastly touches_quiet touches_quiet)

theorem touches_prepareCredentialDirectory {S : List String} :
    Touches S (prepareCredentialDirectory store : Prog σ Unit) := by
  unfold prepareCredentialDirectory
  split
  · exact touches_quiet
  · exact touches_bind touches_quiet fun _ => touches_quiet

theorem view_of_pending {d : Disk} (h : (d (markerPath store)).isSome) : view store d = none :=
  if_pos h

theorem view_of_marker_none {d : Disk} (h : d (markerPath store) = none) :
    view store d = current store d := by
  rw [view, h]
  rfl

/-- Behind the removal of the files, until the marker itself is removed. -/
def Emptied (d : Disk) : Prop :=
  (d (markerPath store)).isSome ∧ d (targetPath store) = none ∧
    (store.platform.isWindows → d (previousPath store) = none)

theorem removeMarker_view (h : Emptied store w.disk) :
    wp (do
        syncDirectory store
        Fs.unlink (markerPath store)
        syncDirectory store : Prog σ Unit)
      (fun _ v => view store v.disk = none ∧ v.disk (markerPath store) = none)
      (fun _ v => view store v.disk = none) (fun d => view store d = none) w := by
  obtain ⟨hm, ht, hp⟩ := h
  have hgone : view store (w.disk.set (markerPath store) none) = none := by
    rw [view_of_marker_none store (Disk.set_same ..), current,
      Disk.set_other (marker_ne_target store).symm, ht]
    split
    · rename_i hw
      rw [Disk.set_other (previous_ne_marker store), hp hw]
      rfl
    · rfl
  apply wp_bind
  apply wp_still (touches_syncDirectory store)
  · intro _ v hv
    apply wp_bind
    apply wp_unlink
    · intro f u _ _ hu
      rw [hv.2] at hu
      apply wp_still (touches_syncDirectory store)
      · intro _ t htu
        rw [htu.2, hu]
        exact ⟨hgone, Disk.set_same ..⟩
      · intro _ t htu
        rw [htu.2, hu]
        exact hgone
      · rw [hu]
        exact hgone
    · intro u hnone _
      rw [hv.2] at hnone
      rw [hnone] at hm
      cases hm
    · intro u hu
      rw [hu.2, hv.2]
      exact view_of_pending store hm
    · rw [hv.2]
      exact view_of_pending store hm
    · intro f _
      rw [hv.2]
      exact hgone
  · intro _ v hv
    rw [hv.2]
    exact view_of_pending store hm
  · exact view_of_pending store hm

/-- Removing the target of a pending removal, then the marker. -/
theorem removeTarget_view (hm : (w.disk (markerPath store)).isSome)
    (hp : store.platform.isWindows → w.disk (previousPath store) = none) :
    wp (do
        Fs.unlinkIfExists (targetPath store)
        syncDirectory store
        Fs.unlink (markerPath store)
        syncDirectory store : Prog σ Unit)
      (fun _ v => view store v.disk = none ∧ v.disk (markerPath store) = none)
      (fun _ v => view store v.disk = none) (fun d => view store d = none) w := by
  have hm' : ((w.disk.set (targetPath store) none) (markerPath store)).isSome := by
    rwa [Disk.set_other (marker_ne_target store)]
  apply wp_bind
  apply wp_unlinkIfExists
  · intro v _ hv
    apply removeMarker_view
    rw [hv]
    refine ⟨hm', Disk.set_same .., fun hw => ?_⟩
    rw [Disk.set_other (previous_ne_target store), hp hw]
  · intro v hv
    rw [hv.2]
    exact view_of_pending store hm
  · exact view_of_pending store hm
  · exact view_of_pending store hm'

theorem finishPendingRemoval_view (h : view store w.disk = R) :
    wp (finishPendingRemoval store)
      (fun _ v => view store v.disk = R ∧ v.disk (markerPath store) = none)
      (fun _ v => view store v.disk = R) (fun d => view store d = R) w := by
  apply wp_bind
  apply wp_pathExists
  · intro v hv
    cases hm : (w.disk (markerPath store)).isSome with
    | false =>
      have hnone : w.disk (markerPath store) = none := Option.not_isSome_iff_eq_none.mp (by simp [hm])
      apply wp_pure
      rw [hv.2]
      exact ⟨h, hnone⟩
    | true =>
      obtain rfl : none = R := (view_of_pending store hm).symm.trans h
      apply wp_bind
      by_cases hw : store.platform.isWindows
      · rw [hw]
        have hm' : ((w.disk.set (previousPath store) none) (markerPath store)).isSome := by
          rwa [Disk.set_other (previous_ne_marker store).symm]
        apply wp_unlinkIfExists
        · intro u _ hu
          rw [hv.2] at hu
          apply removeTarget_view
          · rw [hu]
            exact hm'
          · intro _
            rw [hu, Disk.set_same]
        · intro u hu
          rw [hu.2, hv.2]
          exact view_of_pending store hm
        · rw [hv.2]
          exact view_of_pending store hm
        · rw [hv.2]
          exact view_of_pending store hm'
      · rw [Bool.not_eq_true] at hw
        rw [hw]
        apply wp_pure
        apply removeTarget_view
        · rw [hv.2]
          exact hm
        · intro hw'
          rw [hw] at hw'
          cases hw'
  · intro v hv
    rw [hv.2]
    exact h
  · exact h

theorem recoverWindowsReplace_view (hw : store.platform.isWindows = true)
    (hm : w.disk (markerPath store) = none) (h : current store w.disk = R) :
    wp (recoverWindowsReplace store)
      (fun _ v => v.disk (markerPath store) = none ∧ current store v.disk = R)
      (fun _ v => v.disk (markerPath store) = none ∧ current store v.disk = R)
      (fun d => d (markerPath store) = none ∧ current store d = R) w := by
  have hcur : ∀ d, current store d = (d (targetPath store)).or (d (previousPath store)) := by
    intro d
    rw [current, if_pos hw]
  rw [hcur] at h
  simp only [hcur]
  apply wp_bind
  apply wp_pathExists
  · intro v hv
    cases hp : (w.disk (previousPath store)).isSome with
    | false =>
      apply wp_pure
      rw [hv.2]
      exact ⟨hm, h⟩
    | true =>
      apply wp_bind
      apply wp_pathExists
      · intro u hu
        rw [hv.2]
        cases ht : (w.disk (targetPath store)).isSome with
        | true =>
          obtain ⟨f, hf⟩ := Option.isSome_iff_exists.mp ht
          have hgone : (w.disk.set (previousPath store) none) (markerPath store) = none ∧
              ((w.disk.set (previousPath store) none) (targetPath store)).or
                ((w.disk.set (previousPath store) none) (previousPath store)) = R := by
            rw [Disk.set_other (previous_ne_marker store).symm,
              Disk.set_other (previous_ne_target store).symm, hf]
            rw [hf] at h
            exact ⟨hm, h⟩
          apply wp_unlink
          · intro _ t _ _ htd
            rw [htd, hu.2, hv.2]
            exact hgone
          · intro t _ htd
            rw [htd.2, hu.2, hv.2]
            exact ⟨hm, h⟩
          · intro t htd
            rw [htd.2, hu.2, hv.2]
            exact ⟨hm, h⟩
          · rw [hu.2, hv.2]
            exact ⟨hm, h⟩
          · intro _ _
            rw [hu.2, hv.2]
            exact hgone
        | false =>
          have hf : w.disk (targetPath store) = none :=
            Option.not_isSome_iff_eq_none.mp (by simp [ht])
          have hmoved : ∀ g, w.disk (previousPath store) = some g →
              ((w.disk.set (previousPath store) none).set (targetPath store) (some g))
                (markerPath store) = none ∧
              (((w.disk.set (previousPath store) none).set (targetPath store) (some g))
                (targetPath store)).or
                (((w.disk.set (previousPath store) none).set (targetPath store) (some g))
                  (previousPath store)) = R := by
            intro g hg
            rw [Disk.set_other (marker_ne_target store),
              Disk.set_other (previous_ne_marker store).symm, Disk.set_same]
            rw [hf, hg] at h
            exact ⟨hm, h⟩
          apply wp_rename
          · intro g t hg _ htd
            rw [hu.2, hv.2] at hg htd
            rw [htd]
            exact hmoved g hg
          · intro t _ htd
            rw [htd.2, hu.2, hv.2]
            exact ⟨hm, h⟩
          · intro t htd
            rw [htd.2, hu.2, hv.2]
            exact ⟨hm, h⟩
          · rw [hu.2, hv.2]
            exact ⟨hm, h⟩
          · intro g hg
            rw [hu.2, hv.2] at hg ⊢
            exact hmoved g hg
      · intro u hu
        rw [hu.2, hv.2]
        exact ⟨hm, h⟩
      · rw [hv.2]
        exact ⟨hm, h⟩
  · intro v hv
    rw [hv.2]
    exact ⟨hm, h⟩
  · exact ⟨hm, h⟩

/-- Recovery keeps the record, and leaves no marker where it returns. -/
theorem recover_view (h : view store w.disk = R) :
    wp (recover store)
      (fun _ v => v.disk (markerPath store) = none ∧ current store v.disk = R)
      (fun _ v => view store v.disk = R) (fun d => view store d = R) w := by
  apply wp_bind
  apply wp_still (touches_prepareCredentialDirectory store)
  · intro _ v hv
    apply wp_bind
    refine wp_mono (finishPendingRemoval_view store (R := R) (by rw [hv.2]; exact h)) ?_
      (fun _ _ he => he) (fun _ hd => hd)
    intro _ u ⟨hu, hm⟩
    rw [view_of_marker_none store hm] at hu
    cases hw : store.platform.isWindows with
    | false => exact ⟨hm, hu⟩
    | true =>
      apply wp_mono (recoverWindowsReplace_view store hw hm hu)
      · exact fun _ _ hq => hq
      · intro _ t ⟨hmt, ht⟩
        rw [view_of_marker_none store hmt, ht]
      · intro d ⟨hmt, ht⟩
        rw [view_of_marker_none store hmt, ht]
  · intro _ v hv
    rw [hv.2]
    exact h
  · exact h

end Recovery

section Load

open Prog

variable {σ : Type} (d : Disk) (v : σ)

theorem syncDirectory_calm :
    syncDirectory store (World.calm d v) = (.value (), World.calm d v) := by
  unfold syncDirectory guarded
  split <;> rfl

theorem prepareCredentialDirectory_calm :
    prepareCredentialDirectory store (World.calm d v) = (.value (), World.calm d v) := by
  unfold prepareCredentialDirectory
  split <;> rfl

theorem finishPendingRemoval_calm :
    ∃ e, finishPendingRemoval store (World.calm d v) = (.value (), World.calm e v) := by
  unfold finishPendingRemoval
  rw [bind_of_value (pathExists_calm d v _)]
  cases hm : d (markerPath store) with
  | none => exact ⟨d, rfl⟩
  | some f =>
    have tail : ∀ e : Disk, e (markerPath store) = some f →
        ∃ e', (do
          Fs.unlinkIfExists (targetPath store)
          syncDirectory store
          Fs.unlink (markerPath store)
          syncDirectory store : Prog σ Unit) (World.calm e v) = (.value (), World.calm e' v) := by
      intro e he
      have he' : (e.set (targetPath store) none) (markerPath store) = some f := by
        rw [Disk.set_other (marker_ne_target store), he]
      refine ⟨(e.set (targetPath store) none).set (markerPath store) none, ?_⟩
      rw [bind_of_value (unlinkIfExists_calm e v _), bind_of_value (syncDirectory_calm store _ v),
        bind_of_value (unlink_calm _ v he'), syncDirectory_calm]
    show ∃ e, (guarded store.platform.isWindows (Fs.unlinkIfExists (previousPath store)) >>= _)
      (World.calm d v) = _
    cases hw : store.platform.isWindows with
    | true =>
      rw [guarded, if_pos rfl, bind_of_value (unlinkIfExists_calm d v _)]
      apply tail
      rw [Disk.set_other (previous_ne_marker store).symm, hm]
    | false => exact tail d hm

theorem recoverWindowsReplace_calm :
    ∃ e, recoverWindowsReplace store (World.calm d v) = (.value (), World.calm e v) ∧
      e (previousPath store) = none := by
  unfold recoverWindowsReplace
  rw [bind_of_value (pathExists_calm d v _)]
  cases hp : d (previousPath store) with
  | none => exact ⟨d, rfl, hp⟩
  | some f =>
    rw [Option.isSome_some, guarded, if_pos rfl, bind_of_value (pathExists_calm d v _)]
    split
    · exact ⟨_, unlink_calm d v hp, Disk.set_same ..⟩
    · refine ⟨_, rename_calm d v hp, ?_⟩
      rw [Disk.set_other (previous_ne_target store), Disk.set_same]

/-- Recovery that is not disturbed returns, and leaves the record as the target. -/
theorem recover_calm :
    ∃ e, recover store (World.calm d v) = (.value (), World.calm e v) ∧
      e (targetPath store) = view store d := by
  obtain ⟨e, he⟩ := finishPendingRemoval_calm store d v
  obtain ⟨e', he', hnone⟩ := recoverWindowsReplace_calm store e v
  have hrun : ∃ e, recover store (World.calm d v) = (.value (), World.calm e v) ∧
      current store e = e (targetPath store) := by
    unfold recover current
    rw [bind_of_value (prepareCredentialDirectory_calm store d v), bind_of_value he]
    cases store.platform.isWindows with
    | true =>
      refine ⟨e', he', ?_⟩
      rw [if_pos rfl, hnone, Option.or_none]
    | false => exact ⟨e, rfl, Option.or_none⟩
  obtain ⟨e, he, hcur⟩ := hrun
  have hview := recover_view store (w := World.calm d v) (R := view store d) rfl
  unfold wp at hview
  rw [he] at hview
  exact ⟨e, he, hcur ▸ hview.2⟩

theorem readTarget_calm :
    readTarget store (World.calm d v) =
      (.value (reading store (d (targetPath store))), World.calm d v) := by
  unfold readTarget insecurePermissions reading secure
  cases hw : store.platform.isWindows with
  | true =>
    cases h : d (targetPath store) with
    | none => simp [catching, Prog.bind, Bind.bind, Fs.readFile, call, perform, h, Prog.pure]
    | some f => simp [catching, Prog.bind, Bind.bind, Fs.readFile, call, perform, h, Prog.pure]
  | false =>
    cases h : d (targetPath store) with
    | none => simp [catching, Prog.bind, Bind.bind, Fs.stat, call, perform, h, Prog.pure]
    | some f =>
      by_cases hs : f.mode &&& 63 = 0
      · simp [catching, Prog.bind, Bind.bind, Fs.stat, Fs.readFile, call, perform, h, Prog.pure, hs]
      · simp [catching, Prog.bind, Bind.bind, Fs.stat, call, perform, h, Prog.pure, hs]

/-- A later `load`, in a process of its own whose calls are done. -/
def laterLoad : Outcome LoadResult := (load store (World.calm d ())).1

theorem load_view (ha : availability store = none) :
    laterLoad store d = .value (reading store (view store d)) := by
  obtain ⟨e, he, ht⟩ := recover_calm store d ()
  have hrec : catching (recover store >>= fun _ => Prog.pure true) (fun _ => Prog.pure false)
      (World.calm d ()) = (.value true, World.calm e ()) := by
    apply catching_of_value
    rw [bind_of_value he]
    rfl
  unfold laterLoad load
  rw [ha]
  show ((catching _ _ >>= _) (World.calm d ())).1 = _
  rw [bind_of_value hrec, if_pos rfl, readTarget_calm, ht]

end Load

/-- The same text, and no less readable. -/
def Agree : Option File → Option File → Prop
  | none, none => True
  | some f, some g => f.text = g.text ∧ (secure store f = true → secure store g = true)
  | _, _ => False

theorem Agree.refl (r : Option File) : Agree store r r := by
  cases r with
  | none => trivial
  | some f => exact ⟨rfl, fun h => h⟩

theorem reading_of_agree {r s : Option File} (h : Agree store r s)
    (hr : ∀ f, r = some f → secure store f = true) : reading store s = reading store r := by
  match r, s, h with
  | none, none, _ => rfl
  | some f, some g, ⟨ht, hs⟩ =>
    have hf := hr f rfl
    simp only [reading, hf, hs hf, if_true, ht]

section Replacing

open Prog

variable (nonce new : String) (R : Option File)

/-- The new record. -/
def written : File := { text := new, mode := 0o600 }

theorem secure_mode (text : String) : secure store { text := text, mode := 0o600 } = true := by
  simp [secure]

/-- The files stand for the previous record or for the new one. -/
def Safe (d : Disk) : Prop :=
  d (markerPath store) = none ∧
    (Agree store R (current store d) ∨ Agree store (some (written new)) (current store d))

/-- What the flags of `atomicReplace` say about the files. -/
structure At (v : Replace) (d : Disk) : Prop where
  marker : d (markerPath store) = none
  before : v.replacementCommitted = false →
    (store.platform.isWindows = true → v.backupCreated = false) → current store d = R
  moved : store.platform.isWindows = true → v.backupCreated = true →
    d (backupPath store nonce) = R ∧ R.isSome = true ∧
      (v.replacementCommitted = false → d (targetPath store) = none)
  copied : store.platform.isWindows = false → v.backupCreated = true →
    Agree store R (d (backupPath store nonce)) ∧ R.isSome = true
  after : v.replacementCommitted = true →
    ∃ f, d (targetPath store) = some f ∧ f.text = new ∧ secure store f = true

variable {store nonce new R}

theorem backupPath_windows (hw : store.platform.isWindows = true) :
    backupPath store nonce = previousPath store := if_pos hw

theorem current_windows (nonce : String) (hw : store.platform.isWindows = true) (d : Disk) :
    current store d = (d (targetPath store)).or (d (backupPath store nonce)) := by
  rw [current, if_pos hw, backupPath_windows hw]

theorem current_posix (hw : store.platform.isWindows = false) (d : Disk) :
    current store d = d (targetPath store) := by
  rw [current, hw]
  exact Option.or_none

theorem current_congr {d e : Disk} (ht : e (targetPath store) = d (targetPath store))
    (hb : e (backupPath store nonce) = d (backupPath store nonce)) :
    current store e = current store d := by
  cases hw : store.platform.isWindows with
  | true => rw [current_windows nonce hw, current_windows nonce hw, ht, hb]
  | false => rw [current_posix hw, current_posix hw, ht]

theorem agree_written {f : File} (ht : f.text = new) (hs : secure store f = true) :
    Agree store (some (written new)) (some f) := ⟨ht.symm, fun _ => hs⟩

/-- A target with the new text makes the files safe. -/
theorem safe_of_target {d : Disk} {f : File} (hm : d (markerPath store) = none)
    (hf : d (targetPath store) = some f) (ht : f.text = new) (hs : secure store f = true) :
    Safe store new R d := by
  refine ⟨hm, .inr ?_⟩
  rw [current, hf, Option.some_or]
  exact agree_written ht hs

theorem safe_of_current {d : Disk} (hm : d (markerPath store) = none)
    (hc : current store d = R) : Safe store new R d := ⟨hm, .inl (hc ▸ Agree.refl store R)⟩

theorem At.safe {v : Replace} {d : Disk} (h : At store nonce new R v d) : Safe store new R d := by
  cases hc : v.replacementCommitted with
  | true =>
    obtain ⟨f, hf, ht, hs⟩ := h.after hc
    exact safe_of_target h.marker hf ht hs
  | false =>
    apply safe_of_current h.marker
    cases hw : store.platform.isWindows with
    | false => exact h.before hc fun hw' => absurd hw' (by simp [hw])
    | true =>
      cases hb : v.backupCreated with
      | false => exact h.before hc fun _ => hb
      | true =>
        obtain ⟨hp, -, ht⟩ := h.moved hw hb
        rw [current_windows nonce hw, ht hc, Option.none_or, hp]

/-- `At` looks at three files and two flags. -/
theorem At.congr {v v' : Replace} {d e : Disk} (h : At store nonce new R v d)
    (hm : e (markerPath store) = d (markerPath store))
    (ht : e (targetPath store) = d (targetPath store))
    (hb : e (backupPath store nonce) = d (backupPath store nonce))
    (hvb : v'.backupCreated = v.backupCreated)
    (hvc : v'.replacementCommitted = v.replacementCommitted) : At store nonce new R v' e where
  marker := hm.trans h.marker
  before hc hw := by
    rw [current_congr ht hb]
    exact h.before (hvc ▸ hc) (hvb ▸ hw)
  moved hw hbk := by
    rw [hb, ht, hvc]
    exact h.moved hw (hvb ▸ hbk)
  copied hw hbk := by
    rw [hb]
    exact h.copied hw (hvb ▸ hbk)
  after hc := by
    rw [ht]
    exact h.after (hvc ▸ hc)

/-- Only the temporary file differs. -/
theorem At.temporary {v v' : Replace} {d : Disk} {f : Option File} (h : At store nonce new R v d)
    (hvb : v'.backupCreated = v.backupCreated)
    (hvc : v'.replacementCommitted = v.replacementCommitted) :
    At store nonce new R v' (d.set (temporaryPath store nonce) f) :=
  h.congr (Disk.set_other (temporary_ne_marker store nonce).symm)
    (Disk.set_other (temporary_ne_target store nonce).symm)
    (Disk.set_other (temporary_ne_backup store nonce).symm) hvb hvc

/-- `At` with the flags of the start, or of a backup already taken, before the commit. -/
def Prepared (store : Store) (nonce new : String) (R : Option File) (w : World Replace) : Prop :=
  At store nonce new R w.vars w.disk ∧ w.vars.replacementCommitted = false ∧
    w.disk (temporaryPath store nonce) = some (written new)

theorem writeTemporary_at {w : World Replace} (h : At store nonce new R w.vars w.disk)
    (hb : w.vars.backupCreated = false) (hc : w.vars.replacementCommitted = false) :
    wp (writeTemporary store nonce new)
      (fun _ v => Prepared store nonce new R v ∧ v.vars.backupCreated = false)
      (fun _ v => At store nonce new R v.vars v.disk) (Safe store new R) w := by
  have hat : ∀ (v : Replace) f, v.backupCreated = false → v.replacementCommitted = false →
      At store nonce new R v (w.disk.set (temporaryPath store nonce) f) :=
    fun v f hvb hvc => h.temporary (hvb.trans hb.symm) (hvc.trans hc.symm)
  have hset : ∀ {d : Disk} {f g : Option File},
      d = (w.disk.set (temporaryPath store nonce) f).set (temporaryPath store nonce) g →
      d = w.disk.set (temporaryPath store nonce) g := by
    intro d f g hd
    rw [hd]
    funext n
    by_cases hn : n = temporaryPath store nonce
    · rw [hn, Disk.set_same, Disk.set_same]
    · rw [Disk.set_other hn, Disk.set_other hn, Disk.set_other hn]
  apply wp_bind
  apply wp_openExclusive
  · intro v hv hd
    apply wp_bind
    apply wp_assign
    have hvb : v.vars.backupCreated = false := hv ▸ hb
    have hvc : v.vars.replacementCommitted = false := hv ▸ hc
    apply wp_bind
    refine wp_writeFile (f := { text := "", mode := 0o600 }) ?_ ?_ ?_ ?_ ?_
    · rw [hd, Disk.set_same]
    · intro u hu hdu
      have hdu' : u.disk = w.disk.set (temporaryPath store nonce) (some (written new)) :=
        hset (by rw [hdu, hd]; rfl)
      have hub : u.vars.backupCreated = false := by rw [hu]; exact hvb
      have huc : u.vars.replacementCommitted = false := by rw [hu]; exact hvc
      have rest : ∀ t : World Replace, t.vars = u.vars →
          t.disk = w.disk.set (temporaryPath store nonce) (some (written new)) →
          wp (do
              Fs.quiet
              Fs.quiet
              assign fun v => { v with temporaryHandle := false } : Prog Replace Unit)
            (fun _ v => Prepared store nonce new R v ∧ v.vars.backupCreated = false)
            (fun _ v => At store nonce new R v.vars v.disk) (Safe store new R) t := by
        intro t htv htd
        have hta : At store nonce new R t.vars t.disk := by
          rw [htv, htd]
          exact hat _ _ hub huc
        apply wp_bind
        apply wp_still touches_quiet
        · intro _ s hs
          apply wp_bind
          apply wp_still touches_quiet
          · intro _ r hr
            apply wp_assign
            have hrv : r.vars = u.vars := hr.1.trans (hs.1.trans htv)
            have hrd : r.disk = w.disk.set (temporaryPath store nonce) (some (written new)) :=
              hr.2.trans (hs.2.trans htd)
            refine ⟨⟨?_, ?_, ?_⟩, ?_⟩
            · rw [hrd]
              exact hat _ _ (by rw [hrv]; exact hub) (by rw [hrv]; exact huc)
            · rw [hrv]
              exact huc
            · show r.disk _ = _
              rw [hrd, Disk.set_same]
            · rw [hrv]
              exact hub
          · intro _ r hr
            rw [hr.1, hr.2, hs.1, hs.2]
            exact hta
          · rw [hs.2]
            exact hta.safe
        · intro _ s hs
          rw [hs.1, hs.2]
          exact hta
        · exact hta.safe
      apply wp_bind
      unfold guarded
      split
      · refine wp_fchmod (f := written new) ?_ ?_ ?_ ?_ ?_
        · rw [hdu', Disk.set_same]
        · intro t ht htd
          refine rest t ht (hset (by rw [htd, hdu']; rfl))
        · intro _ t ht
          rw [ht.1, ht.2, hdu']
          exact hat _ _ hub huc
        · rw [hdu']
          exact (hat _ _ hub huc).safe
        · rw [hdu']
          exact ((hat _ _ hub huc).temporary rfl rfl).safe
      · apply wp_pure
        exact rest u rfl hdu'
    · intro _ u hu
      rw [hu.1, hu.2, hd]
      exact hat _ _ hvb hvc
    · show Safe store new R v.disk
      rw [hd]
      exact (hat v.vars _ hvb hvc).safe
    · show Safe store new R (v.disk.set _ _)
      rw [hd]
      exact ((hat v.vars _ hvb hvc).temporary rfl rfl).safe
  · intro _ v hv
    rw [hv.1, hv.2]
    exact h
  · exact h.safe
  · exact (hat w.vars _ hb hc).safe

theorem Prepared.still {w v : World Replace} (h : Prepared store nonce new R w) (hv : Still w v) :
    Prepared store nonce new R v := by
  unfold Prepared
  rw [hv.1, hv.2]
  exact h

/-- A backup that keeps `Prepared` even where it throws. -/
theorem ignoreMissing_prepared {p : Prog Replace Unit} {w : World Replace}
    (h : wp p (fun _ v => Prepared store nonce new R v) (fun _ v => Prepared store nonce new R v)
      (Safe store new R) w) :
    wp (ignoreMissing p) (fun _ v => Prepared store nonce new R v)
      (fun _ v => At store nonce new R v.vars v.disk) (Safe store new R) w := by
  apply wp_catching
  refine wp_mono h (fun _ _ hq => hq) ?_ (fun _ hd => hd)
  intro c v hv
  split
  · exact hv
  · exact hv.1

theorem moveToBackup_at {w : World Replace} (hw : store.platform.isWindows = true)
    (h : Prepared store nonce new R w) (hb : w.vars.backupCreated = false) :
    wp (moveToBackup store nonce) (fun _ v => Prepared store nonce new R v)
      (fun _ v => At store nonce new R v.vars v.disk) (Safe store new R) w := by
  obtain ⟨hat, hc, htmp⟩ := h
  have hcur : current store w.disk = R := hat.before hc fun _ => hb
  -- the renamed target is the record
  have hrec : ∀ f, w.disk (targetPath store) = some f → R = some f := by
    intro f hf
    rw [← hcur, current, hf, Option.some_or]
  have hmoved : ∀ f, w.disk (targetPath store) = some f →
      At store nonce new R { w.vars with backupCreated := true }
        ((w.disk.set (targetPath store) none).set (backupPath store nonce) (some f)) := by
    intro f hf
    refine ⟨?_, ?_, ?_, ?_, ?_⟩
    · rw [Disk.set_other (backup_ne_marker store nonce).symm,
        Disk.set_other (marker_ne_target store), hat.marker]
    · exact fun _ hbk => absurd (hbk hw) (by simp)
    · intro _ _
      refine ⟨?_, ?_, fun _ => ?_⟩
      · rw [Disk.set_same, hrec f hf]
      · rw [hrec f hf]
        rfl
      · rw [Disk.set_other (backup_ne_target store nonce).symm, Disk.set_same]
    · exact fun hw' => absurd hw' (by simp [hw])
    · exact fun hc' => absurd hc' (by simp [hc])
  apply ignoreMissing_prepared
  apply wp_bind
  apply wp_rename
  · intro f v hf hv hd
    apply wp_bind
    apply wp_assign
    have hp : Prepared store nonce new R
        { v with vars := { v.vars with backupCreated := true } } := by
      refine ⟨?_, ?_, ?_⟩
      · rw [hd, hv]
        exact hmoved f hf
      · rw [hv]
        exact hc
      · show v.disk _ = _
        rw [hd, Disk.set_other (temporary_ne_backup store nonce),
          Disk.set_other (temporary_ne_target store nonce), htmp]
    exact wp_still (touches_syncDirectory store) (fun _ _ hu => hp.still hu)
      (fun _ _ hu => hp.still hu) hp.1.safe
  · exact fun v _ hv => Prepared.still ⟨hat, hc, htmp⟩ hv
  · exact fun v hv => Prepared.still ⟨hat, hc, htmp⟩ hv
  · exact hat.safe
  · exact fun f hf => (hmoved f hf).safe

theorem copyToBackup_at {w : World Replace} (hw : store.platform.isWindows = false)
    (h : Prepared store nonce new R w) (hb : w.vars.backupCreated = false) :
    wp (copyToBackup store nonce) (fun _ v => Prepared store nonce new R v)
      (fun _ v => At store nonce new R v.vars v.disk) (Safe store new R) w := by
  obtain ⟨hat, hc, htmp⟩ := h
  have hcur : w.disk (targetPath store) = R :=
    (current_posix hw w.disk).symm.trans (hat.before hc fun _ => hb)
  -- a copy of the record, of whichever mode, beside it
  have hcopy : ∀ (v : Replace) (d : Disk) (g : File), v.backupCreated = true →
      v.replacementCommitted = false → Agree store R (some g) → R.isSome = true →
      d = w.disk.set (backupPath store nonce) (some g) → At store nonce new R v d := by
    intro v d g hvb hvc hg hr hd
    refine ⟨?_, ?_, ?_, ?_, ?_⟩
    · rw [hd, Disk.set_other (backup_ne_marker store nonce).symm, hat.marker]
    · intro _ _
      rw [current_posix hw, hd, Disk.set_other (backup_ne_target store nonce).symm, hcur]
    · exact fun hw' => absurd hw' (by simp [hw])
    · intro _ _
      rw [hd, Disk.set_same]
      exact ⟨hg, hr⟩
    · exact fun hc' => absurd hc' (by simp [hvc])
  have hprep : ∀ (v : World Replace) (g : File), v.vars.backupCreated = true →
      v.vars.replacementCommitted = false → Agree store R (some g) → R.isSome = true →
      v.disk = w.disk.set (backupPath store nonce) (some g) → Prepared store nonce new R v := by
    intro v g hvb hvc hg hr hd
    refine ⟨hcopy v.vars v.disk g hvb hvc hg hr hd, hvc, ?_⟩
    rw [hd, Disk.set_other (temporary_ne_backup store nonce), htmp]
  apply ignoreMissing_prepared
  apply wp_bind
  apply wp_copyFile
  · intro f v hf hv hd
    have hr : R = some f := hcur ▸ hf
    have hrs : R.isSome = true := by rw [hr]; rfl
    have hag : Agree store R (some f) := hr ▸ Agree.refl store R
    apply wp_bind
    apply wp_assign
    have hp : Prepared store nonce new R
        { v with vars := { v.vars with backupCreated := true } } :=
      hprep _ f rfl (by rw [hv]; exact hc) hag hrs hd
    apply wp_bind
    apply wp_still touches_openRead
    · intro _ u hu
      apply wp_bind
      apply wp_still (touches_lastly touches_quiet touches_quiet)
      · intro _ t ht
        have htp := (hp.still hu).still ht
        have htd : t.disk = w.disk.set (backupPath store nonce) (some f) :=
          ht.2.trans (hu.2.trans hd)
        have htv : t.vars = { v.vars with backupCreated := true } := ht.1.trans hu.1
        have hmode : Agree store R (some { f with mode := 0o600 }) := by
          rw [hr]
          exact ⟨rfl, fun _ => secure_mode store f.text⟩
        have hset : ∀ g : File, t.disk.set (backupPath store nonce) (some g) =
            w.disk.set (backupPath store nonce) (some g) := by
          intro g
          rw [htd]
          funext n
          by_cases hn : n = backupPath store nonce
          · rw [hn, Disk.set_same, Disk.set_same]
          · rw [Disk.set_other hn, Disk.set_other hn, Disk.set_other hn]
        have hsome : t.disk (backupPath store nonce) = some f := by rw [htd, Disk.set_same]
        apply wp_bind
        apply wp_chmod
        · intro g s hg hs hsd
          obtain rfl : f = g := Option.some.inj (hsome.symm.trans hg)
          have hsp : Prepared store nonce new R s :=
            hprep s _ (by rw [hs, htv]) (by rw [hs, htv, hv]; exact hc) hmode hrs
              (hsd.trans (hset _))
          exact wp_still (touches_syncDirectory store) (fun _ _ h => hsp.still h)
            (fun _ _ h => hsp.still h) hsp.1.safe
        · exact fun _ s hs => htp.still hs
        · exact htp.1.safe
        · intro g hg
          obtain rfl : f = g := Option.some.inj (hsome.symm.trans hg)
          exact (hcopy t.vars _ _ (by rw [htv]) (by rw [htv, hv]; exact hc) hmode hrs (hset _)).safe
      · exact fun _ t ht => (hp.still hu).still ht
      · exact (hp.still hu).1.safe
    · exact fun _ u hu => hp.still hu
    · exact hp.1.safe
  · exact fun v _ hv => Prepared.still ⟨hat, hc, htmp⟩ hv
  · exact fun _ v _ hv => Prepared.still ⟨hat, hc, htmp⟩ hv
  · exact hat.safe
  · intro f hf
    have hr : R = some f := hcur ▸ hf
    exact (hcopy { w.vars with backupCreated := true } _ f rfl hc (hr ▸ Agree.refl store R)
      (by rw [hr]; rfl) rfl).safe

/-- The new target, beside whatever backup there is. -/
theorem At.committed {v v' : Replace} {d e : Disk} {f : File} (h : At store nonce new R v d)
    (hvb : v'.backupCreated = v.backupCreated) (hvc : v'.replacementCommitted = true)
    (hm : e (markerPath store) = d (markerPath store)) (hf : e (targetPath store) = some f)
    (hb : e (backupPath store nonce) = d (backupPath store nonce)) (ht : f.text = new)
    (hs : secure store f = true) : At store nonce new R v' e where
  marker := hm.trans h.marker
  before hc := absurd hc (by simp [hvc])
  moved hw hbk := by
    obtain ⟨hp, hr, -⟩ := h.moved hw (hvb ▸ hbk)
    exact ⟨hb.trans hp, hr, fun hc => absurd hc (by simp [hvc])⟩
  copied hw hbk := by
    rw [hb]
    exact h.copied hw (hvb ▸ hbk)
  after _ := ⟨f, hf, ht, hs⟩

/-- The backup removed behind the commit. -/
theorem dropBackup_at {w : World Replace} (h : At store nonce new R w.vars w.disk)
    (hc : w.vars.replacementCommitted = true) :
    wp (do
        let v ← vars
        guarded v.backupCreated do
          Fs.unlink (backupPath store nonce)
          assign fun v => { v with backupCreated := false }
          syncDirectory store : Prog Replace Unit)
      (fun _ v => At store nonce new R v.vars v.disk ∧ v.vars.backupCreated = false)
      (fun _ v => At store nonce new R v.vars v.disk) (Safe store new R) w := by
  apply wp_vars
  cases hb : w.vars.backupCreated with
  | false => exact wp_pure ⟨h, hb⟩
  | true =>
    obtain ⟨f, hf, ht, hs⟩ := h.after hc
    have hdrop : At store nonce new R { w.vars with backupCreated := false }
        (w.disk.set (backupPath store nonce) none) := by
      refine ⟨?_, ?_, ?_, ?_, ?_⟩
      · rw [Disk.set_other (backup_ne_marker store nonce).symm, h.marker]
      · exact fun hc' => absurd hc' (by simp [hc])
      · exact fun _ hbk => absurd hbk (by simp)
      · exact fun _ hbk => absurd hbk (by simp)
      · intro _
        refine ⟨f, ?_, ht, hs⟩
        rw [Disk.set_other (backup_ne_target store nonce).symm, hf]
    apply wp_bind
    apply wp_unlink
    · intro _ v _ hv hd
      apply wp_bind
      apply wp_assign
      have hat : At store nonce new R { v.vars with backupCreated := false } v.disk := by
        rw [hv, hd]
        exact hdrop
      apply wp_still (touches_syncDirectory store)
      · intro _ u hu
        rw [hu.1, hu.2]
        exact ⟨hat, rfl⟩
      · intro _ u hu
        rw [hu.1, hu.2]
        exact hat
      · exact hat.safe
    · intro v _ hv
      rw [hv.1, hv.2]
      exact h
    · intro v hv
      rw [hv.1, hv.2]
      exact h
    · exact h.safe
    · exact fun _ _ => hdrop.safe

theorem commit_at {w : World Replace} (h : Prepared store nonce new R w) :
    wp (commit store nonce)
      (fun _ v => At store nonce new R v.vars v.disk ∧ v.vars.backupCreated = false)
      (fun _ v => At store nonce new R v.vars v.disk) (Safe store new R) w := by
  obtain ⟨hat, hc, htmp⟩ := h
  have hnew : ∀ (v : Replace) (d : Disk) (f : File), v.backupCreated = w.vars.backupCreated →
      v.replacementCommitted = true → f.text = new → secure store f = true →
      d = (w.disk.set (temporaryPath store nonce) none).set (targetPath store) (some f) →
      At store nonce new R v d := by
    intro v d f hvb hvc ht hs hd
    refine hat.committed hvb hvc ?_ ?_ ?_ ht hs
    · rw [hd, Disk.set_other (marker_ne_target store),
        Disk.set_other (temporary_ne_marker store nonce).symm]
    · rw [hd, Disk.set_same]
    · rw [hd, Disk.set_other (backup_ne_target store nonce),
        Disk.set_other (temporary_ne_backup store nonce).symm]
  have hfile : ∀ f, w.disk (temporaryPath store nonce) = some f → f = written new :=
    fun f hf => (Option.some.inj (htmp.symm.trans hf)).symm
  apply wp_bind
  apply wp_rename
  · intro f v hf hv hd
    obtain rfl := hfile f hf
    apply wp_bind
    apply wp_assign
    have hvat : At store nonce new R { v.vars with replacementCommitted := true } v.disk :=
      hnew _ _ (written new) (by rw [hv]) rfl rfl (secure_mode store new) hd
    have rest : ∀ u : World Replace, u.vars = { v.vars with replacementCommitted := true } →
        At store nonce new R u.vars u.disk →
        wp (do
            syncDirectory store
            let v ← vars
            guarded v.backupCreated do
              Fs.unlink (backupPath store nonce)
              assign fun v => { v with backupCreated := false }
              syncDirectory store : Prog Replace Unit)
          (fun _ v => At store nonce new R v.vars v.disk ∧ v.vars.backupCreated = false)
          (fun _ v => At store nonce new R v.vars v.disk) (Safe store new R) u := by
      intro u huv hua
      apply wp_bind
      apply wp_still (touches_syncDirectory store)
      · intro _ t ht
        apply dropBackup_at
        · rw [ht.1, ht.2]
          exact hua
        · rw [ht.1, huv]
      · intro _ t ht
        rw [ht.1, ht.2]
        exact hua
      · exact hua.safe
    apply wp_bind
    unfold guarded
    split
    · have hmode : ∀ g, v.disk (targetPath store) = some g →
          At store nonce new R { v.vars with replacementCommitted := true }
            (v.disk.set (targetPath store) (some { g with mode := 0o600 })) := by
        intro g hg
        have hgn : g.text = new := by
          rw [hd, Disk.set_same] at hg
          rw [← Option.some.inj hg]
          rfl
        refine hvat.committed (f := { g with mode := 0o600 }) rfl rfl ?_ ?_ ?_ hgn
          (secure_mode store _)
        · rw [Disk.set_other (marker_ne_target store)]
        · rw [Disk.set_same]
        · rw [Disk.set_other (backup_ne_target store nonce)]
      apply wp_chmod
      · intro g u hg hu hud
        apply rest u hu
        rw [hu, hud]
        exact hmode g hg
      · intro _ u hu
        rw [hu.1, hu.2]
        exact hvat
      · exact hvat.safe
      · exact fun g hg => (hmode g hg).safe
    · apply wp_pure
      exact rest _ rfl hvat
  · intro v hnone _
    rw [htmp] at hnone
    cases hnone
  · intro v hv
    rw [hv.1, hv.2]
    exact hat
  · exact hat.safe
  · intro f hf
    obtain rfl := hfile f hf
    exact (hnew { w.vars with replacementCommitted := true } _ (written new) rfl rfl rfl
      (secure_mode store new) rfl).safe

theorem replaceBody_at {w : World Replace} (h : At store nonce new R w.vars w.disk)
    (hb : w.vars.backupCreated = false) (hc : w.vars.replacementCommitted = false) :
    wp (replaceBody store nonce new)
      (fun _ v => At store nonce new R v.vars v.disk ∧ v.vars.backupCreated = false)
      (fun _ v => At store nonce new R v.vars v.disk) (Safe store new R) w := by
  apply wp_seq (writeTemporary_at h hb hc)
  intro _ v ⟨hv, hvb⟩
  cases hw : store.platform.isWindows with
  | true => exact wp_seq (moveToBackup_at hw hv hvb) fun _ u hu => commit_at hu
  | false => exact wp_seq (copyToBackup_at hw hv hvb) fun _ u hu => commit_at hu

/-- Behind the `catch` block: the `finally` block will not remove the backup that Windows needs. -/
def Settled (store : Store) (new : String) (R : Option File) (w : World Replace) : Prop :=
  Safe store new R w.disk ∧
    (store.platform.isWindows = true → w.vars.backupCreated = true →
      w.vars.replacementCommitted = true ∨ w.vars.preserveBackup = true)

theorem keepBackup_settled {p : Prog Replace Unit} {w : World Replace}
    (h : wp p (fun _ v => Settled store new R v) (fun _ v => Safe store new R v.disk)
      (Safe store new R) w) :
    wp (keepBackup p) (fun _ v => Settled store new R v) (fun _ _ => False) (Safe store new R) w := by
  apply wp_catching
  refine wp_mono h (fun _ _ hq => hq) ?_ (fun _ hd => hd)
  intro c v hv
  apply wp_assign
  exact ⟨hv, fun _ _ => .inr rfl⟩

/-- Moving the backup back. -/
theorem restore_settled {w : World Replace} (hs : Safe store new R w.disk)
    (hb : ∀ f, w.disk (backupPath store nonce) = some f → Agree store R (some f)) :
    wp (restore store nonce) (fun _ v => Settled store new R v)
      (fun _ v => Safe store new R v.disk) (Safe store new R) w := by
  have hback : ∀ f, w.disk (backupPath store nonce) = some f →
      Safe store new R
        ((w.disk.set (backupPath store nonce) none).set (targetPath store) (some f)) := by
    intro f hf
    refine ⟨?_, .inl ?_⟩
    · rw [Disk.set_other (marker_ne_target store),
        Disk.set_other (backup_ne_marker store nonce).symm, hs.1]
    · rw [current, Disk.set_same, Option.some_or]
      exact hb f hf
  apply wp_bind
  apply wp_rename
  · intro f v hf _ hd
    apply wp_bind
    apply wp_assign
    have hv : Safe store new R v.disk := by
      rw [hd]
      exact hback f hf
    apply wp_still (touches_syncDirectory store)
    · intro _ u hu
      refine ⟨hu.2 ▸ hv, fun _ hbk => ?_⟩
      rw [hu.1] at hbk
      cases hbk
    · exact fun _ u hu => hu.2 ▸ hv
    · exact hv
  · exact fun v _ hv => hv.2 ▸ hs
  · exact fun v hv => hv.2 ▸ hs
  · exact hs
  · exact hback

/-- On Windows the new target is removed before the backup is moved back. -/
theorem undoCommitted {w : World Replace} (h : At store nonce new R w.vars w.disk)
    (hb : w.vars.backupCreated = true) :
    wp (keepBackup do
        guarded store.platform.isWindows (Fs.ignore (Fs.unlink (targetPath store)))
        restore store nonce) (fun _ v => Settled store new R v) (fun _ _ => False)
      (Safe store new R) w := by
  apply keepBackup_settled
  apply wp_bind
  cases hw : store.platform.isWindows with
  | false =>
    apply wp_pure
    apply restore_settled h.safe
    intro f hf
    have := (h.copied hw hb).1
    rwa [hf] at this
  | true =>
    obtain ⟨hp, -, -⟩ := h.moved hw hb
    have hgone : Safe store new R (w.disk.set (targetPath store) none) ∧
        (w.disk.set (targetPath store) none) (backupPath store nonce) = R := by
      have hmk : (w.disk.set (targetPath store) none) (markerPath store) = none := by
        rw [Disk.set_other (marker_ne_target store), h.marker]
      have hbk : (w.disk.set (targetPath store) none) (backupPath store nonce) = R := by
        rw [Disk.set_other (backup_ne_target store nonce), hp]
      refine ⟨safe_of_current hmk ?_, hbk⟩
      rw [current_windows nonce hw, hbk, Disk.set_same, Option.none_or]
    have back : ∀ v : World Replace, Safe store new R v.disk →
        v.disk (backupPath store nonce) = R →
        wp (restore store nonce) (fun _ v => Settled store new R v)
          (fun _ v => Safe store new R v.disk) (Safe store new R) v := by
      intro v hs hbk
      apply restore_settled hs
      intro f hf
      rw [← hf, hbk]
      exact Agree.refl store R
    apply wp_catching
    apply wp_unlink
    · intro _ v _ _ hd
      exact back v (hd ▸ hgone.1) (hd ▸ hgone.2)
    · exact fun v _ hv => wp_pure (back v (hv.2 ▸ h.safe) (hv.2 ▸ hp))
    · exact fun v hv => wp_pure (back v (hv.2 ▸ h.safe) (hv.2 ▸ hp))
    · exact h.safe
    · exact fun _ _ => hgone.1

theorem undo_settled {w : World Replace} (h : At store nonce new R w.vars w.disk) :
    wp (undo store nonce) (fun _ v => Settled store new R v) (fun _ _ => False)
      (Safe store new R) w := by
  apply wp_vars
  split
  · rename_i hcb
    rw [Bool.and_eq_true] at hcb
    exact undoCommitted h hcb.2
  · rename_i hcb
    cases hwb : store.platform.isWindows && w.vars.backupCreated with
    | false =>
      apply wp_pure
      refine ⟨h.safe, fun hw hb => ?_⟩
      rw [hw, hb] at hwb
      cases hwb
    | true =>
      rw [Bool.and_eq_true] at hwb
      apply keepBackup_settled
      apply restore_settled h.safe
      intro f hf
      rw [← hf, (h.moved hwb.1 hwb.2).1]
      exact Agree.refl store R

/-- Files that differ in the temporary file, or on other systems than Windows in the backup. -/
theorem Safe.congr {d e : Disk} (h : Safe store new R d)
    (hm : e (markerPath store) = d (markerPath store)) (hc : current store e = current store d) :
    Safe store new R e := ⟨hm.trans h.1, hc ▸ h.2⟩

theorem Safe.temporary {d : Disk} {f : Option File} (h : Safe store new R d) :
    Safe store new R (d.set (temporaryPath store nonce) f) :=
  h.congr (Disk.set_other (temporary_ne_marker store nonce).symm)
    (current_congr (Disk.set_other (temporary_ne_target store nonce).symm)
      (Disk.set_other (temporary_ne_backup store nonce).symm))

theorem Safe.backup {d : Disk} {f : Option File} (hw : store.platform.isWindows = false)
    (h : Safe store new R d) : Safe store new R (d.set (backupPath store nonce) f) := by
  apply h.congr (Disk.set_other (backup_ne_marker store nonce).symm)
  rw [current_posix hw, current_posix hw, Disk.set_other (backup_ne_target store nonce).symm]

theorem cleanUp_safe {w : World Replace} (h : Settled store new R w) :
    wp (cleanUp store nonce) (fun _ v => Safe store new R v.disk) (fun _ _ => False)
      (Safe store new R) w := by
  obtain ⟨hs, hwin⟩ := h
  have last : ∀ v : World Replace, v.vars = w.vars → Safe store new R v.disk →
      wp (do
          let v ← vars
          guarded (v.backupCreated && !v.replacementCommitted && !v.preserveBackup)
            (Fs.ignore (Fs.unlink (backupPath store nonce))) : Prog Replace Unit)
        (fun _ v => Safe store new R v.disk) (fun _ _ => False) (Safe store new R) v := by
    intro v hv hvs
    apply wp_vars
    cases hg : v.vars.backupCreated && !v.vars.replacementCommitted && !v.vars.preserveBackup with
    | false => exact wp_pure hvs
    | true =>
      simp only [Bool.and_eq_true, Bool.not_eq_true', hv] at hg
      have hw : store.platform.isWindows = false := by
        by_contra hw
        rcases hwin (by simpa using hw) hg.1.1 with hc | hp
        · rw [hc] at hg
          cases hg.1.2
        · rw [hp] at hg
          cases hg.2
      apply wp_catching
      apply wp_unlink
      · intro _ u _ _ hd
        rw [hd]
        exact hvs.backup hw
      · exact fun u _ hu => wp_pure (hu.2 ▸ hvs)
      · exact fun u hu => wp_pure (hu.2 ▸ hvs)
      · exact hvs
      · exact fun _ _ => hvs.backup hw
  have clean : ∀ v : World Replace, Still w v →
      wp (do
          Fs.ignore (Fs.unlink (temporaryPath store nonce))
          let v ← vars
          guarded (v.backupCreated && !v.replacementCommitted && !v.preserveBackup)
            (Fs.ignore (Fs.unlink (backupPath store nonce))) : Prog Replace Unit)
        (fun _ v => Safe store new R v.disk) (fun _ _ => False) (Safe store new R) v := by
    intro v hv
    have hvs : Safe store new R v.disk := hv.2 ▸ hs
    apply wp_bind
    apply wp_catching
    apply wp_unlink
    · intro _ u _ hu hd
      apply last u (hu.trans hv.1)
      rw [hd]
      exact hvs.temporary
    · exact fun u _ hu => wp_pure (last u (hu.1.trans hv.1) (hu.2 ▸ hvs))
    · exact fun u hu => wp_pure (last u (hu.1.trans hv.1) (hu.2 ▸ hvs))
    · exact hvs
    · exact fun _ _ => hvs.temporary
  apply wp_vars
  apply wp_bind
  unfold guarded
  split
  · apply wp_catching
    apply wp_still touches_quiet
    · exact fun _ v hv => clean v hv
    · exact fun _ v hv => wp_pure (clean v hv)
    · exact hs
  · exact wp_pure (clean w ⟨rfl, rfl⟩)

theorem atomicReplace_safe {σ : Type} {w : World σ} (hm : w.disk (markerPath store) = none)
    (hc : current store w.disk = R) :
    wp (atomicReplace store nonce new) (fun _ v => Safe store new R v.disk)
      (fun _ v => Safe store new R v.disk) (Safe store new R) w := by
  have hs : Safe store new R w.disk := safe_of_current hm hc
  apply wp_withLocals
  apply wp_bind
  apply wp_still touches_quiet
  · intro _ v hv
    have hat : At store nonce new R v.vars v.disk := by
      rw [hv.1, hv.2]
      refine ⟨hm, fun _ _ => hc, ?_, ?_, ?_⟩
      · exact fun _ hb => absurd hb (by simp [Replace.start])
      · exact fun _ hb => absurd hb (by simp [Replace.start])
      · exact fun hb => absurd hb (by simp [Replace.start])
    have hbody := replaceBody_at hat (by rw [hv.1]; rfl) (by rw [hv.1]; rfl)
    have tidy : ∀ u : World Replace, Settled store new R u →
        wp (cleanUp store nonce) (fun _ v => Safe store new R v.disk)
          (fun _ v => Safe store new R v.disk) (Safe store new R) u :=
      fun u hu => wp_mono (cleanUp_safe hu) (fun _ _ h => h) (fun _ _ h => h.elim) (fun _ h => h)
    apply wp_lastly
    apply wp_catching
    apply wp_mono hbody
    · intro _ u ⟨hu, hub⟩
      exact tidy u ⟨hu.safe, fun _ hb => absurd hb (by simp [hub])⟩
    · intro c u hu
      apply wp_bind
      refine wp_mono (undo_settled hu) ?_ (fun _ _ h => h.elim) (fun _ h => h)
      intro _ t ht
      exact wp_throw (tidy t ht)
    · exact fun _ h => h
  · exact fun _ v hv => hv.2 ▸ hs
  · exact hs

end Replacing

section Envelope

theorem storedProfile_eq : storedProfile store = store.profileIdentity.val.normalize := by
  rw [storedProfile, expectedProfile, Json.parse_canonicalJson store.profileIdentity.property]
  rfl

theorem isObject_normalize {j : Json} (h : j.isObject = true) : j.normalize.isObject = true := by
  cases j with
  | obj fields => rw [Json.normalize, Json.isObject]
  | _ => cases h

theorem distinct_envelope (credential : Value) : (envelope store credential.val).Distinct := by
  refine .obj (by simp) ?_
  intro f hf
  simp only [List.mem_cons, List.not_mem_nil, or_false] at hf
  rcases hf with rfl | rfl | rfl
  · exact .num _
  · rw [storedProfile_eq]
    exact Json.distinct_normalize store.profileIdentity.property
  · exact credential.property

theorem joinedKeys_envelope (credential : Json) :
    (envelope store credential).joinedKeys = String.intercalate "," envelopeKeys := by
  have h : Json.sortFields [("version", .num credentialEnvelopeVersion),
      ("profileIdentity", storedProfile store), ("credential", credential)] =
      [("credential", credential), ("profileIdentity", storedProfile store),
        ("version", .num credentialEnvelopeVersion)] := by
    have h1 : Json.utf16 "version" ≤ Json.utf16 "profileIdentity" ↔ False := by decide
    have h2 : Json.utf16 "profileIdentity" ≤ Json.utf16 "credential" ↔ False := by decide
    simp [Json.sortFields, List.mergeSort, List.MergeSort.Internal.splitInTwo, Json.keyLe, h1, h2]
  rw [envelope, Json.joinedKeys, h]
  rfl

/-- The file that `save` writes reads back as the credential. -/
theorem readEnvelope_contents {credential : Value}
    (h : assertCredential store credential.val = true) :
    readEnvelope store (contents store credential.val) = .available credential.val := by
  have hparse : Json.parse (contents store credential.val) =
      some (envelope store credential.val) := by
    apply Json.parse_stringify (distinct_envelope store credential)
    intro c hc
    obtain rfl : c = Char.ofNat 10 := by simpa using hc
    rfl
  have hversion : (envelope store credential.val).get? "version" =
      some (.num credentialEnvelopeVersion) := rfl
  have hprofile : (envelope store credential.val).get? "profileIdentity" =
      some (storedProfile store) := rfl
  have hcredential : (envelope store credential.val).get? "credential" =
      some credential.val := rfl
  have hobj : (storedProfile store).isObject = true := by
    rw [storedProfile_eq]
    exact isObject_normalize store.profile_isObject
  have hvalid : validateEnvelope store (envelope store credential.val) = true := by
    simp only [validateEnvelope, hversion, hprofile, hcredential, joinedKeys_envelope, hobj, h,
      beq_self_eq_true, Bool.and_true]
    rfl
  have hcanon : (storedProfile store).canonicalJson = expectedProfile store := by
    rw [storedProfile_eq, Json.canonicalJson_normalize]
    rfl
  simp only [readEnvelope, hparse, hvalid, if_true, hprofile, hcredential, hcanon,
    beq_self_eq_true]

end Envelope

section Saving

open Prog

variable {store} {credential : Value} {R : Option File}

/-- The record is the previous one, or the new one that `save` accepted. -/
def Kept (store : Store) (credential : Value) (R : Option File) (d : Disk) : Prop :=
  Agree store R (view store d) ∨
    (assertCredential store credential.val = true ∧
      Agree store (some (written (contents store credential.val))) (view store d))

theorem kept_of_view {d : Disk} (h : view store d = R) : Kept store credential R d :=
  .inl (h ▸ Agree.refl store R)

theorem kept_of_safe {d : Disk} (ha : assertCredential store credential.val = true)
    (h : Safe store (contents store credential.val) R d) : Kept store credential R d := by
  unfold Kept
  rw [view_of_marker_none store h.1]
  exact h.2.imp_right fun hn => ⟨ha, hn⟩

/-- Whatever becomes of its calls, `load` keeps the record. -/
theorem load_keeps_view {w : World Unit} (h : view store w.disk = R) :
    view store (load store w).2.disk = R := by
  have hread : ∀ S : List String, Touches S (readTarget store : Prog Unit LoadResult) := by
    intro S
    apply touches_catching
    · apply touches_bind
      · unfold insecurePermissions
        split
        · exact touches_pure false
        · exact touches_bind (touches_stat _) fun _ => touches_pure _
      · intro b
        split
        · exact touches_pure _
        · exact touches_bind (touches_readFile _) fun _ => touches_pure _
    · exact fun _ => touches_pure _
  apply disk_of_wp (P := fun d => view store d = R)
  unfold load
  split
  · exact wp_pure h
  · apply wp_bind
    apply wp_catching
    apply wp_bind
    refine wp_mono (recover_view store h) ?_ ?_ (fun _ hd => hd)
    · intro _ v ⟨hm, hc⟩
      have hv : view store v.disk = R := by rw [view_of_marker_none store hm, hc]
      apply wp_pure
      rw [if_pos rfl]
      exact wp_still (hread []) (fun _ _ hs => hs.2 ▸ hv) (fun _ _ hs => hs.2 ▸ hv) hv
    · intro _ v hv
      exact wp_pure (wp_pure hv)

theorem save_kept {w : World Unit} (nonce : String) (h : view store w.disk = R) :
    Kept store credential R (save store nonce credential w).2.disk := by
  apply disk_of_wp (P := Kept store credential R)
  unfold save
  split
  · exact wp_pure (kept_of_view h)
  · apply wp_bind
    apply wp_catching
    apply wp_bind
    refine wp_mono (recover_view store h) ?_ ?_ (fun _ hd => kept_of_view hd)
    · intro _ v ⟨hm, hc⟩
      have hv : view store v.disk = R := by rw [view_of_marker_none store hm, hc]
      apply wp_pure
      show wp (if _ then _ else if _ then _ else _) _ _ _ _
      rw [if_neg (by simp)]
      split
      · exact wp_pure (kept_of_view hv)
      · rename_i ha
        have ha : assertCredential store credential.val = true := by simpa using ha
        apply wp_catching
        apply wp_bind
        refine wp_mono (atomicReplace_safe hm hc) ?_ ?_ (fun _ hs => kept_of_safe ha hs)
        · exact fun _ _ hs => wp_pure (kept_of_safe ha hs)
        · exact fun _ _ hs => wp_pure (kept_of_safe ha hs)
    · intro _ v hv
      apply wp_pure
      show wp (if _ then _ else _) _ _ _ _
      rw [if_pos (by rfl)]
      exact wp_pure (kept_of_view hv)

/-- What a `load` that accepts the record makes of one that agrees with it. -/
theorem reading_of_kept {d : Disk} (h : Kept store credential R d)
    (hr : reading store R = .empty ∨ ∃ c, reading store R = .available c) :
    reading store (view store d) = reading store R ∨
      reading store (view store d) = .available credential.val := by
  have hsecure : ∀ f, R = some f → secure store f = true := by
    rintro f rfl
    by_contra hf
    simp [reading, hf] at hr
  rcases h with h | ⟨ha, h⟩
  · exact .inl (reading_of_agree store h hsecure)
  · right
    rw [reading_of_agree store h fun f hf => by
      obtain rfl := Option.some.inj hf
      exact secure_mode store _]
    simp only [reading, written, secure_mode, if_true]
    exact readEnvelope_contents store ha

/-- Loads of later processes that were themselves disturbed. -/
def interruptedLoads (store : Store) : List (List Fate) → Disk → Disk
  | [], d => d
  | fates :: rest, d =>
    interruptedLoads store rest (load store { disk := d, fates := fates, vars := () }).2.disk

theorem interruptedLoads_view (loads : List (List Fate)) (d : Disk) :
    view store (interruptedLoads store loads d) = view store d := by
  induction loads generalizing d with
  | nil => rfl
  | cons fates rest ih =>
    rw [interruptedLoads, ih]
    exact load_keeps_view rfl

/-- A `save` of which any calls fail, or that dies at any call, leaves the previous record or the new
one to every later `load`. -/
theorem save_is_crash_atomic (store : Store) (nonce : String) (credential : Value) (d : Disk)
    (fates : List Fate) (loads : List (List Fate)) (previous : LoadResult)
    (hload : laterLoad store d = .value previous)
    (hstored : previous = .empty ∨ ∃ stored, previous = .available stored) :
    laterLoad store (interruptedLoads store loads
        (save store nonce credential { disk := d, fates := fates, vars := () }).2.disk) =
      .value previous ∨
    laterLoad store (interruptedLoads store loads
        (save store nonce credential { disk := d, fates := fates, vars := () }).2.disk) =
      .value (.available credential.val) := by
  have ha : availability store = none := by
    by_contra hne
    obtain ⟨reason, hreason⟩ := Option.ne_none_iff_exists'.mp hne
    rw [laterLoad, load, hreason] at hload
    have hprev : LoadResult.unavailable reason = previous := Outcome.value.inj hload
    rcases hstored with h | ⟨stored, h⟩
    · rw [h] at hprev
      cases hprev
    · rw [h] at hprev
      cases hprev
  rw [load_view store d ha] at hload
  have hread : reading store (view store d) = previous := Outcome.value.inj hload
  rw [load_view store _ ha, interruptedLoads_view, ← hread]
  have hkept := @save_kept store credential _ { disk := d, fates := fates, vars := () } nonce rfl
  rcases reading_of_kept hkept (hread ▸ hstored) with h | h
  · left
    rw [h]
  · right
    rw [h]

/-- A credential and a profile to run the store on. -/
def sampleCredential (generation : Int) : Json :=
  .obj [("userId", .str "7"), ("deviceId", .str "d"), ("familyId", .str "f"),
    ("generation", .num generation), ("lastConfirmedServerGeneration", .num generation),
    ("pendingRotation", .null), ("refreshToken", .str "yuance_drt_a")]

theorem sampleCredential_distinct (n : Int) : (sampleCredential n).Distinct := by
  refine .obj (by simp) ?_
  intro f hf
  simp only [List.mem_cons, List.not_mem_nil, or_false] at hf
  rcases hf with rfl | rfl | rfl | rfl | rfl | rfl | rfl
  · exact .str _
  · exact .str _
  · exact .str _
  · exact .num _
  · exact .num _
  · exact .null
  · exact .str _

def sampleStore : Store where
  base := "credentials.json"
  platform := .win32
  profileIdentity := sampleProfile
  profile_isObject := sampleProfile_isObject
  dateParses := fun _ => true

def sampleDisk : Disk :=
  fun n => if n = "credentials.json" then
      some { text := contents sampleStore (sampleCredential 1), mode := 0o600 }
    else none

theorem sampleDisk_load :
    laterLoad sampleStore sampleDisk = .value (.available (sampleCredential 1)) := by
  rw [load_view _ _ rfl]
  have hv : view sampleStore sampleDisk =
      some { text := contents sampleStore (sampleCredential 1), mode := 0o600 } := rfl
  rw [hv, reading, if_pos (by decide)]
  congr 1
  exact @readEnvelope_contents sampleStore ⟨sampleCredential 1, sampleCredential_distinct 1⟩
    (by decide)

/-- The process dies on Windows between the two renames. -/
def sampleFates : List Fate := List.replicate 9 .done ++ [.dies false]

def sampleNext : Value := ⟨sampleCredential 2, sampleCredential_distinct 2⟩

theorem save_dies_between_the_renames :
    laterLoad sampleStore (interruptedLoads sampleStore [[Fate.fails]]
        (save sampleStore "00" sampleNext
          { disk := sampleDisk, fates := sampleFates, vars := () }).2.disk) =
      .value (.available (sampleCredential 1)) ∨
    laterLoad sampleStore (interruptedLoads sampleStore [[Fate.fails]]
        (save sampleStore "00" sampleNext
          { disk := sampleDisk, fates := sampleFates, vars := () }).2.disk) =
      .value (.available sampleNext.val) := by
  refine save_is_crash_atomic sampleStore "00" sampleNext sampleDisk sampleFates [[Fate.fails]]
    (.available (sampleCredential 1)) sampleDisk_load ?_
  exact .inr ⟨_, rfl⟩

end Saving

end CredentialStore
end Auth
end Yuance
