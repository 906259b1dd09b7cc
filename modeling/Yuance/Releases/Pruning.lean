import Yuance.Releases.Model

/-!
# Yuance.Releases.Pruning

What is left of the tables when old releases are removed: the other releases with their assets, and
the files of these assets as they were.

* `prune_same`: the rows that stay.
* `prune_select`, `prune_assetsOf`: what a reader finds behind a prune.
-/

namespace Yuance
namespace Releases

open Lib Platform Files

variable {db : Db}

/-- The assets of a release depend on the assets and the files alone. -/
theorem assetsOf_congr {db' : Db} {id : Int}
    (ha : db'.assets.filter (·.releaseId == id) = db.assets.filter (·.releaseId == id))
    (hj : ∀ a ∈ db.assets, a.releaseId = id → db'.joined a = db.joined a) :
    db'.assetsOf id = db.assetsOf id := by
  unfold Db.assetsOf
  rw [ha]
  congr 1
  apply List.filterMap_congr
  intro a hmem
  obtain ⟨hmem, hid⟩ := List.mem_filter.mp hmem
  exact hj a hmem (by simpa using hid)

/-- Behind a change of files, an asset is joined as before where its file is as before. -/
theorem joined_updateWhere {p : FileObject → Bool} {f : FileObject → FileObject}
    (hid : ∀ o, (f o).id = o.id) {a : Asset}
    (hsame : ∀ o, db.object a.fileObjectId = some o → p o = false) :
    Db.joined { db with objects := updateWhere p f db.objects } a = db.joined a := by
  unfold Db.joined Db.object
  rw [find?_updateWhere (fun o => by rw [hid])]
  cases ho : db.objects.find? (fun o => o.id == a.fileObjectId) with
  | none => rfl
  | some o =>
    have hp := hsame o ho
    simp [hp]

theorem releaseObject_joined {fileObjectId : Int} {a : Asset} (ha : a ∈ db.assets) :
    (db.releaseObject fileObjectId).joined a = db.joined a := by
  unfold Db.releaseObject
  split
  · rfl
  · rename_i hfree
    apply joined_updateWhere
    · exact fun _ => rfl
    intro o ho
    have hoid := List.find?_some ho
    rw [beq_iff_eq] at hoid
    by_contra hp
    rw [Bool.not_eq_false, beq_iff_eq] at hp
    apply hfree
    rw [Db.isProtected, Bool.or_eq_true, List.any_eq_true]
    exact .inr ⟨a, ha, by rw [beq_iff_eq, ← hoid, hp]⟩

theorem releaseObject_same (fileObjectId : Int) :
    (db.releaseObject fileObjectId).releases = db.releases ∧
      (db.releaseObject fileObjectId).assets = db.assets ∧
      (db.releaseObject fileObjectId).nextObject = db.nextObject := by
  unfold Db.releaseObject
  split
  · exact ⟨rfl, rfl, rfl⟩
  · exact ⟨rfl, rfl, rfl⟩

theorem releaseObject_objects (h : ∀ o ∈ db.objects, o.id < db.nextObject) (fileObjectId : Int) :
    ∀ o ∈ (db.releaseObject fileObjectId).objects, o.id < db.nextObject := by
  unfold Db.releaseObject
  split
  · exact h
  · intro o ho
    obtain ⟨o', ho', rfl⟩ := mem_updateWhere.mp ho
    split
    · exact h o' ho'
    · exact h o' ho'

/-- Removing the files that no asset uses. -/
structure SameAssets (db db' : Db) : Prop where
  releases : db'.releases = db.releases
  assets : db'.assets = db.assets
  nextObject : db'.nextObject = db.nextObject
  objects : (∀ o ∈ db.objects, o.id < db.nextObject) → ∀ o ∈ db'.objects, o.id < db'.nextObject
  joined : ∀ a ∈ db.assets, db'.joined a = db.joined a

theorem foldl_releaseObject (files : List Int) (db : Db) :
    SameAssets db (files.foldl Db.releaseObject db) := by
  induction files generalizing db with
  | nil => exact ⟨rfl, rfl, rfl, fun h => h, fun _ _ => rfl⟩
  | cons f files ih =>
    obtain ⟨hreleases, hassets, hnext⟩ := @releaseObject_same db f
    have hrest := ih (db.releaseObject f)
    rw [List.foldl_cons]
    refine ⟨hrest.releases.trans hreleases, hrest.assets.trans hassets, hrest.nextObject.trans hnext,
      ?_, ?_⟩
    · intro h
      apply hrest.objects
      rw [hnext]
      exact releaseObject_objects h f
    · intro a ha
      rw [hrest.joined a (hassets ▸ ha), releaseObject_joined ha]

theorem SameAssets.assetsOf {db db' : Db} (h : SameAssets db db') (id : Int) :
    db'.assetsOf id = db.assetsOf id :=
  assetsOf_congr (by rw [h.assets]) fun a ha _ => h.joined a ha


/-- The tables without the pruned releases and their assets. -/
def Db.withoutPruned (db : Db) (retention : Int) : Db :=
  { db with
    releases := db.releases.filter fun r => !(db.prunedIds retention).contains r.id
    assets := db.assets.filter fun a => !(db.prunedIds retention).contains a.releaseId }

theorem prune_same (retention : Int) :
    SameAssets (db.withoutPruned retention) (db.prune retention) :=
  foldl_releaseObject _ _

theorem prune_select (retention id : Int) :
    (db.prune retention).select id =
      if (db.prunedIds retention).contains id then none else db.select id := by
  unfold Db.select
  rw [(prune_same retention).releases, Db.withoutPruned, List.find?_filter]
  split
  · rename_i hin
    rw [List.find?_eq_none]
    intro r _
    simp only [decide_eq_true_eq, Bool.not_eq_true', beq_iff_eq, not_and]
    rintro hfree rfl
    rw [hin] at hfree
    cases hfree
  · rename_i hout
    congr 1
    funext r
    by_cases hid : r.id = id
    · rw [List.contains_iff_mem] at hout
      simp [hid, hout]
    · simp [hid]

theorem select_of_prune {retention id : Int} {r : Release}
    (hr : (db.prune retention).select id = some r) :
    (db.prunedIds retention).contains id = false ∧ db.select id = some r := by
  rw [prune_select] at hr
  split at hr
  · cases hr
  · rename_i hout
    exact ⟨by simpa using hout, hr⟩

theorem prune_assetsOf {retention id : Int} (hout : (db.prunedIds retention).contains id = false) :
    (db.prune retention).assetsOf id = db.assetsOf id := by
  rw [(prune_same retention).assetsOf id]
  refine assetsOf_congr ?_ fun a _ _ => rfl
  rw [Db.withoutPruned, List.filter_filter]
  apply List.filter_congr
  intro a _
  by_cases ha : a.releaseId = id
  · simp only [ha, hout, Bool.not_false, Bool.and_true]
  · simp [ha]

end Releases
end Yuance
