import Yuance.Releases.Pruning
import Yuance.Releases.Reading

/-!
# Yuance.Releases.Frozen

A verified release keeps its assets. Adding an asset and verifying a release both look first and
write later, so this needs that the release is not yet verified when an asset is inserted, and that
its assets are still complete when it is marked as verified. Deleting an asset checks the release in
its own transaction, and confirming an upload changes pending files only.

* `Later`: what no statement undoes.
* `execute_keeps`: one statement.
* `verified_release_is_frozen`: every run.
* `asset_behind_verification`: a run in which an asset is inserted behind the verification.
-/

namespace Yuance
namespace Releases

open Lib Platform Files

/-- An internal release whose evidence was verified. -/
def IsVerified (r : Release) : Prop := r.channel = .internal ∧ r.verification = .verified

structure Inv (db : Db) : Prop where
  ids : (db.releases.map (·.id)).Nodup
  objects : ∀ o ∈ db.objects, o.id < db.nextObject
  files : ∀ a ∈ db.assets, a.fileObjectId < db.nextObject
  complete : ∀ id r, db.select id = some r → IsVerified r →
    hasCompleteInternalEvidence ⟨r, db.assetsOf id⟩ = true
  published : ∀ id r, db.select id = some r → r.channel = .internal → r.status = .published →
    r.verification = .verified
  withdrawn : ∀ id r, db.select id = some r → r.withdrawnAt.isSome = true → r.status = .published

/-- A release stays verified, and with it its assets; a withdrawn release stays as it is. -/
structure Later (db db' : Db) : Prop where
  rows : ∀ id r', db'.select id = some r' → ∃ r, db.select id = some r ∧ r.channel = r'.channel ∧
    (r.verification = .verified → r'.verification = .verified)
  assets : ∀ id r r', db.select id = some r → IsVerified r → db'.select id = some r' →
    db'.assetsOf id = db.assetsOf id
  withdrawn : ∀ id r, db.select id = some r → r.withdrawnAt.isSome = true → db'.select id = some r

theorem Later.refl (db : Db) : Later db db where
  rows := fun _ r' h => ⟨r', h, rfl, fun h => h⟩
  assets := fun _ _ _ _ _ _ => rfl
  withdrawn := fun _ _ h _ => h

theorem Later.verified {db db' : Db} (h : Later db db') {id : Int} {r r' : Release}
    (hr : db.select id = some r) (hv : IsVerified r) (hr' : db'.select id = some r') :
    IsVerified r' := by
  obtain ⟨r₀, hr₀, hchannel, hverified⟩ := h.rows id r' hr'
  obtain rfl : r = r₀ := Option.some.inj (hr.symm.trans hr₀)
  exact ⟨hchannel ▸ hv.1, hverified hv.2⟩

theorem Later.trans (a b c : Db) (h : Later a b) (h' : Later b c) : Later a c where
  rows := by
    intro id r'' hr''
    obtain ⟨r', hr', hchannel', hverified'⟩ := h'.rows id r'' hr''
    obtain ⟨r, hr, hchannel, hverified⟩ := h.rows id r' hr'
    exact ⟨r, hr, hchannel.trans hchannel', fun hv => hverified' (hverified hv)⟩
  assets := by
    intro id r r'' hr hv hr''
    obtain ⟨r', hr', -⟩ := h'.rows id r'' hr''
    rw [h'.assets id r' r'' hr' (h.verified hr hv hr') hr'', h.assets id r r' hr hv hr']
  withdrawn := fun id r hr hw => h'.withdrawn id r (h.withdrawn id r hr hw) hw

section Statements

variable {db : Db}

theorem keeps_same (h : Inv db) : Inv db ∧ Later db db := ⟨h, .refl db⟩

/-- A change that leaves the releases alone, and the assets of the verified ones. -/
theorem assets_keep {db' : Db} (h : Inv db) (hreleases : db'.releases = db.releases)
    (hobjects : ∀ o ∈ db'.objects, o.id < db'.nextObject)
    (hfiles : ∀ a ∈ db'.assets, a.fileObjectId < db'.nextObject)
    (hassets : ∀ id r, db.select id = some r → IsVerified r →
      db'.assetsOf id = db.assetsOf id) : Inv db' ∧ Later db db' := by
  have hselect : ∀ id, db'.select id = db.select id := by
    intro id
    unfold Db.select
    rw [hreleases]
  refine ⟨⟨?_, hobjects, hfiles, ?_, ?_, ?_⟩, ⟨?_, ?_, ?_⟩⟩
  · rw [hreleases]
    exact h.ids
  · intro id r hr hv
    rw [hselect] at hr
    rw [hassets id r hr hv]
    exact h.complete id r hr hv
  · intro id r hr
    exact h.published id r (hselect id ▸ hr)
  · intro id r hr
    exact h.withdrawn id r (hselect id ▸ hr)
  · intro id r' hr'
    exact ⟨r', hselect id ▸ hr', rfl, fun hv => hv⟩
  · intro id r _ hr hv _
    exact hassets id r hr hv
  · intro id r hr _
    rw [hselect]
    exact hr

theorem hasCompleteInternalEvidence_congr {r r' : Release} {assets : List AssetSummary}
    (h : r'.manifestSha256 = r.manifestSha256) :
    hasCompleteInternalEvidence ⟨r', assets⟩ = hasCompleteInternalEvidence ⟨r, assets⟩ := by
  unfold hasCompleteInternalEvidence
  rw [h]

/-- An update of releases that are not withdrawn. -/
theorem updateReleases_keeps (h : Inv db) {p : Release → Bool} {f : Release → Release}
    (hid : ∀ r, (f r).id = r.id) (hchannel : ∀ r, (f r).channel = r.channel)
    (hmanifest : ∀ r, (f r).manifestSha256 = r.manifestSha256)
    (hverified : ∀ r, r.verification = .verified → (f r).verification = .verified)
    (hopen : ∀ r, p r = true → r.withdrawnAt.isSome = false)
    (hcomplete : ∀ id r, db.select id = some r → p r = true → IsVerified (f r) →
      hasCompleteInternalEvidence ⟨r, db.assetsOf id⟩ = true)
    (hpublished : ∀ id r, db.select id = some r → p r = true → r.channel = .internal →
      (f r).status = .published → (f r).verification = .verified)
    (hwithdrawn : ∀ r, p r = true → (f r).withdrawnAt.isSome = true → (f r).status = .published) :
    Inv (db.updateReleases p f).1 ∧ Later db (db.updateReleases p f).1 := by
  have hselect : ∀ id r', (db.updateReleases p f).1.select id = some r' →
      ∃ r, db.select id = some r ∧ r' = if p r then f r else r := by
    intro id r' hr'
    unfold Db.select Db.updateReleases at hr'
    rw [find?_updateWhere (fun r => by rw [hid])] at hr'
    obtain ⟨r, hr, rfl⟩ := Option.map_eq_some_iff.mp hr'
    exact ⟨r, hr, rfl⟩
  have hassets : ∀ id, (db.updateReleases p f).1.assetsOf id = db.assetsOf id := fun _ => rfl
  refine ⟨⟨?_, h.objects, h.files, ?_, ?_, ?_⟩, ⟨?_, ?_, ?_⟩⟩
  · show ((updateWhere p f db.releases).map (·.id)).Nodup
    rw [map_updateWhere (fun r : Release => r.id) hid]
    exact h.ids
  · intro id r' hr' hv
    obtain ⟨r, hr, rfl⟩ := hselect id r' hr'
    rw [hassets]
    split at hv
    · rename_i hp
      rw [if_pos hp, hasCompleteInternalEvidence_congr (hmanifest r)]
      exact hcomplete id r hr hp hv
    · rename_i hp
      rw [if_neg hp]
      exact h.complete id r hr hv
  · intro id r' hr' hinternal hstatus
    obtain ⟨r, hr, rfl⟩ := hselect id r' hr'
    by_cases hp : p r = true
    · rw [if_pos hp] at hinternal hstatus ⊢
      exact hpublished id r hr hp (hchannel r ▸ hinternal) hstatus
    · rw [if_neg hp] at hinternal hstatus ⊢
      exact h.published id r hr hinternal hstatus
  · intro id r' hr' hw
    obtain ⟨r, hr, rfl⟩ := hselect id r' hr'
    by_cases hp : p r = true
    · rw [if_pos hp] at hw ⊢
      exact hwithdrawn r hp hw
    · rw [if_neg hp] at hw ⊢
      exact h.withdrawn id r hr hw
  · intro id r' hr'
    obtain ⟨r, hr, rfl⟩ := hselect id r' hr'
    refine ⟨r, hr, ?_⟩
    split
    · exact ⟨(hchannel r).symm, hverified r⟩
    · exact ⟨rfl, fun hv => hv⟩
  · exact fun id _ _ _ _ _ => hassets id
  · intro id r hr hw
    unfold Db.select Db.updateReleases
    rw [find?_updateWhere (fun r => by rw [hid])]
    have hp : ¬p r = true := by
      intro hp
      rw [hopen r hp] at hw
      cases hw
    rw [show db.releases.find? (fun r => r.id == id) = some r from hr, Option.map_some, if_neg hp]

theorem isNone_of_isSome {α : Type} {o : Option α} (h : o.isNone = true) : o.isSome = false := by
  cases o with
  | none => rfl
  | some a => cases h

/-- Publishing needs that an internal release is verified. -/
theorem updateVersion_keeps (h : Inv db) {releaseId : Int} {u : Db.VersionUpdate} {now : Int}
    (hpublish : u.publish = true → ∀ r, db.select releaseId = some r → r.channel = .internal →
      r.verification = .verified) :
    Inv (db.updateVersion releaseId u now).1 ∧ Later db (db.updateVersion releaseId u now).1 := by
  unfold Db.updateVersion
  dsimp only
  split
  · exact keeps_same h
  · refine updateReleases_keeps h (fun _ => rfl) (fun _ => rfl) (fun _ => rfl) (fun _ hv => hv)
      ?_ ?_ ?_ ?_
    · intro r hp
      simp only [Bool.and_eq_true] at hp
      exact isNone_of_isSome hp.1.2
    · intro id r hr _ hv
      exact h.complete id r hr hv
    · intro id r hr hp hinternal hstatus
      simp only [Bool.and_eq_true, beq_iff_eq] at hp
      have hid : releaseId = id := by rw [← hp.1.1, select_id hr]
      simp only [Db.setVersion] at hstatus
      split at hstatus
      · rename_i hboth
        simp only [Bool.and_eq_true] at hboth
        exact hpublish hboth.2 r (hid ▸ hr) hinternal
      · exact h.published id r hr hinternal hstatus
    · intro r hp hw
      simp only [Bool.and_eq_true] at hp
      have hnone := isNone_of_isSome hp.1.2
      rw [show (Db.setVersion u now r).withdrawnAt = r.withdrawnAt from rfl, hnone] at hw
      cases hw

theorem verifyRelease_keeps (h : Inv db) {releaseId : Int}
    (hcomplete : ∀ r, db.select releaseId = some r →
      hasCompleteInternalEvidence ⟨r, db.assetsOf releaseId⟩ = true) :
    Inv (db.verifyRelease releaseId).1 ∧ Later db (db.verifyRelease releaseId).1 := by
  refine updateReleases_keeps h (fun _ => rfl) (fun _ => rfl) (fun _ => rfl) (fun _ _ => rfl)
    ?_ ?_ ?_ ?_
  · intro r hp
    simp only [Bool.and_eq_true] at hp
    exact isNone_of_isSome hp.2
  · intro id r hr hp _
    simp only [Bool.and_eq_true, beq_iff_eq] at hp
    obtain rfl : releaseId = id := by rw [← hp.1.1.1.1, select_id hr]
    exact hcomplete r hr
  · exact fun _ _ _ _ _ _ => rfl
  · intro r hp hw
    simp only [Bool.and_eq_true] at hp
    rw [show ({ r with verification := VerificationStatus.verified } : Release).withdrawnAt =
      r.withdrawnAt from rfl, isNone_of_isSome hp.2] at hw
    cases hw

theorem withdrawRelease_keeps (h : Inv db) {releaseId : Int} {reason : String}
    {githubStatus : GithubStatus} {now : Int} :
    Inv (db.withdrawRelease releaseId reason githubStatus now).1 ∧
      Later db (db.withdrawRelease releaseId reason githubStatus now).1 := by
  refine updateReleases_keeps h (fun _ => rfl) (fun _ => rfl) (fun _ => rfl) (fun _ hv => hv)
    ?_ ?_ ?_ ?_
  · intro r hp
    simp only [Bool.and_eq_true] at hp
    exact isNone_of_isSome hp.2
  · intro id r hr _ hv
    exact h.complete id r hr hv
  · intro id r hr _ hinternal hstatus
    exact h.published id r hr hinternal hstatus
  · intro r hp _
    simp only [Bool.and_eq_true, beq_iff_eq] at hp
    exact hp.1.2

/-- A new file is the file of no asset. -/
theorem insertObject_keeps (h : Inv db) {originalFilename contentType checksumSha256 : String}
    {byteSize : Int} :
    Inv (db.insertObject originalFilename contentType byteSize checksumSha256).1 ∧
      Later db (db.insertObject originalFilename contentType byteSize checksumSha256).1 := by
  refine assets_keep h rfl ?_ ?_ ?_
  · intro o ho
    show o.id < db.nextObject + 1
    rcases List.mem_append.mp ho with ho | ho
    · have := h.objects o ho
      omega
    · obtain rfl := List.mem_singleton.mp ho
      show db.nextObject < db.nextObject + 1
      omega
  · intro a ha
    have := h.files a ha
    show a.fileObjectId < db.nextObject + 1
    omega
  · intro id r _ _
    refine assetsOf_congr rfl ?_
    intro a ha _
    have hne : (db.nextObject == a.fileObjectId) = false := by
      have := h.files a ha
      rw [beq_eq_false_iff_ne]
      omega
    unfold Db.joined Db.object Db.insertObject
    simp only [List.find?_append, List.find?_cons, hne, List.find?_nil, Option.or_none]

theorem insertAsset_keeps (h : Inv db) {releaseId fileObjectId : Int} {platform : ReleasePlatform}
    {architecture : Architecture} {artifactKind : ArtifactKind} {now : Int}
    (hmutable : ∀ r, db.select releaseId = some r → ¬IsVerified r) :
    Inv (db.insertAsset releaseId fileObjectId platform architecture artifactKind now).1 ∧
      Later db (db.insertAsset releaseId fileObjectId platform architecture artifactKind now).1 := by
  unfold Db.insertAsset
  split
  · exact keeps_same h
  · rename_i hcheck
    simp only [Bool.or_eq_true, not_or] at hcheck
    refine assets_keep h rfl h.objects ?_ ?_
    · intro a ha
      rcases List.mem_append.mp ha with ha | ha
      · exact h.files a ha
      · obtain rfl := List.mem_singleton.mp ha
        cases ho : db.object fileObjectId with
        | none => simp [ho] at hcheck
        | some o =>
          have hid := List.find?_some ho
          have hlt := h.objects o (List.mem_of_find?_eq_some ho)
          simp only [beq_iff_eq] at hid
          show fileObjectId < db.nextObject
          omega
    · intro id r hr hv
      have hne : ¬(releaseId == id) = true := by
        intro heq
        rw [beq_iff_eq] at heq
        exact hmutable r (heq ▸ hr) hv
      refine assetsOf_congr ?_ fun a _ _ => rfl
      simp only [List.filter_append, List.filter_cons, hne, Bool.false_eq_true, if_false,
        List.filter_nil, List.append_nil]

/-- Only pending files change, and a verified release has none. -/
theorem markUploaded_keeps (h : Inv db) {fileObjectId : Int} {checksumSha256 : String} :
    Inv (db.markUploaded fileObjectId checksumSha256).1 ∧
      Later db (db.markUploaded fileObjectId checksumSha256).1 := by
  refine assets_keep h rfl ?_ h.files ?_
  · intro o ho
    obtain ⟨o', ho', rfl⟩ := mem_updateWhere.mp ho
    split
    · exact h.objects o' ho'
    · exact h.objects o' ho'
  · intro id r hr hv
    refine assetsOf_congr rfl ?_
    intro a ha hid
    apply joined_updateWhere
    · exact fun _ => rfl
    intro o ho
    have hall := h.complete id r hr hv
    simp only [hasCompleteInternalEvidence, Bool.and_eq_true] at hall
    have huploaded : ∀ s ∈ db.assetsOf id, s.isUploaded = true :=
      List.all_eq_true.mp hall.1.1.1.1.1.2
    have hmem : (⟨a, o⟩ : AssetSummary) ∈ db.assetsOf id := by
      unfold Db.assetsOf
      rw [mem_orderBy, List.mem_filterMap]
      refine ⟨a, List.mem_filter.mpr ⟨ha, by simp [hid]⟩, ?_⟩
      rw [Db.joined, ho]
      rfl
    have hup := huploaded _ hmem
    simp only [AssetSummary.isUploaded, beq_iff_eq] at hup
    simp [hup]

theorem deleteAsset_keeps (h : Inv db) {releaseId assetId fileObjectId : Int} :
    Inv (db.deleteAsset releaseId assetId fileObjectId).1 ∧
      Later db (db.deleteAsset releaseId assetId fileObjectId).1 := by
  unfold Db.deleteAsset
  split
  · exact keeps_same h
  · rename_i hcount
    split
    · exact keeps_same h
    · have hsame := foldl_releaseObject [fileObjectId] { db with
        assets := db.assets.filter fun a => !(a.id == assetId && a.releaseId == releaseId) }
      refine assets_keep h hsame.releases (hsame.objects h.objects) ?_ ?_
      · intro a ha
        rw [show (Db.releaseObject _ fileObjectId).nextObject = db.nextObject from hsame.nextObject]
        rw [show (Db.releaseObject _ fileObjectId).assets = _ from hsame.assets] at ha
        exact h.files a (List.mem_filter.mp ha).1
      · intro id r hr hv
        -- the release of the asset is not verified
        have hne : releaseId ≠ id := by
          rintro rfl
          obtain ⟨r', hr'⟩ := List.length_eq_one_iff.mp (not_not.mp hcount)
          have hmem : r' ∈ db.releases.filter fun r => r.id == releaseId && Db.isMutable r := by
            rw [hr']
            exact List.mem_singleton_self r'
          obtain ⟨hmem, hboth⟩ := List.mem_filter.mp hmem
          simp only [Bool.and_eq_true, beq_iff_eq] at hboth
          have hsel := select_of_mem h.ids hmem
          rw [hboth.1, hr] at hsel
          obtain rfl := Option.some.inj hsel
          simp [Db.isMutable, hv.1, hv.2] at hboth
        rw [show Db.assetsOf (Db.releaseObject _ fileObjectId) id = _ from hsame.assetsOf id]
        refine assetsOf_congr ?_ fun a _ _ => rfl
        rw [List.filter_filter]
        apply List.filter_congr
        intro a _
        by_cases ha : a.releaseId = id
        · simp [ha, Ne.symm hne]
        · simp [ha]

theorem prune_keeps (h : Inv db) (retention : Int) :
    Inv (db.prune retention) ∧ Later db (db.prune retention) := by
  have hsame := @prune_same db retention
  have hleft := @select_of_prune db retention
  have hassets := @prune_assetsOf db retention
  refine ⟨⟨?_, hsame.objects h.objects, ?_, ?_, ?_, ?_⟩, ⟨?_, ?_, ?_⟩⟩
  · rw [hsame.releases]
    exact h.ids.sublist (List.filter_sublist.map _)
  · intro a ha
    rw [hsame.nextObject]
    rw [hsame.assets] at ha
    exact h.files a (List.mem_filter.mp ha).1
  · intro id r hr hv
    obtain ⟨hout, hr⟩ := hleft hr
    rw [hassets hout]
    exact h.complete id r hr hv
  · intro id r hr
    exact h.published id r (hleft hr).2
  · intro id r hr
    exact h.withdrawn id r (hleft hr).2
  · intro id r hr
    exact ⟨r, (hleft hr).2, rfl, fun hv => hv⟩
  · intro id r r' _ _ hr'
    exact hassets (hleft hr').1
  · intro id r hr hw
    rw [prune_select, if_neg ?_]
    · exact hr
    · intro hin
      obtain ⟨r', hr', hid⟩ := List.mem_map.mp (List.contains_iff_mem.mp hin)
      obtain ⟨hmem, hlisted⟩ := List.mem_filter.mp hr'
      have hsel := select_of_mem h.ids hmem
      rw [hid, hr] at hsel
      obtain rfl := Option.some.inj hsel
      simp only [Db.isListed, Bool.and_eq_true] at hlisted
      rw [isNone_of_isSome hlisted.1.2] at hw
      cases hw

/-- No asset is added to a verified release, and what is marked as verified is still complete. -/
def StillOpen (db : Db) : Statement → Prop
  | .insertAsset releaseId _ _ _ _ => ∀ r, db.select releaseId = some r → ¬IsVerified r
  | .verifyRelease releaseId => ∀ r, db.select releaseId = some r →
      hasCompleteInternalEvidence ⟨r, db.assetsOf releaseId⟩ = true
  | _ => True

/-- An internal release that is published was verified. -/
def PublishesVerified (db : Db) : Statement → Prop
  | .updateVersion releaseId u => u.publish = true → ∀ r, db.select releaseId = some r →
      r.channel = .internal → r.verification = .verified
  | _ => True

theorem execute_keeps (h : Inv db) {now : Int} {s : Statement} (hs : StillOpen db s)
    (hp : PublishesVerified db s) :
    Inv (execute now db s).1 ∧ Later db (execute now db s).1 := by
  cases s with
  | select releaseId => exact keeps_same h
  | countVersionName versionName excludeId => exact keeps_same h
  | assetsOf releaseId => exact keeps_same h
  | asset releaseId assetId => exact keeps_same h
  | updateVersion releaseId update => exact updateVersion_keeps h hp
  | ensureSettings =>
    exact assets_keep h rfl h.objects h.files fun _ _ _ _ => rfl
  | selectRetention => exact keeps_same h
  | setRetention retention =>
    exact assets_keep h rfl h.objects h.files fun _ _ _ _ => rfl
  | prune retention => exact prune_keeps h retention
  | storageActive => exact keeps_same h
  | insertObject originalFilename contentType byteSize checksumSha256 => exact insertObject_keeps h
  | object fileObjectId => exact keeps_same h
  | insertAsset releaseId fileObjectId platform architecture artifactKind =>
    exact insertAsset_keeps h hs
  | countMutable releaseId => exact keeps_same h
  | markUploaded fileObjectId checksumSha256 => exact markUploaded_keeps h
  | verifyRelease releaseId => exact verifyRelease_keeps h hs
  | withdrawRelease releaseId reason githubStatus => exact withdrawRelease_keeps h
  | deleteAsset releaseId assetId fileObjectId => exact deleteAsset_keeps h
  | publishedIds => exact keeps_same h

theorem perform_keeps (h : Inv db) {m : Moment} {s : Statement} (hs : StillOpen db s)
    (hp : PublishesVerified db s) : Inv (perform m s db).1 ∧ Later db (perform m s db).1 := by
  unfold perform
  split
  · exact keeps_same h
  · exact execute_keeps h hs hp

end Statements

def frozen : Discipline Statement Statement.Answer AppError Db Moment where
  perform := perform
  R := Later
  I := Inv
  C := StillOpen
  refl := Later.refl
  trans := Later.trans

section Calls

variable {db : Db}

theorem quiet_query {s : Statement} (hs : ∀ d, Later db d → PublishesVerified d s) :
    Quiet frozen (query s) db :=
  quiet_make fun b _ hb hi hc => perform_keeps hi hc (hs b hb)

theorem listReleaseAssets_keeps (releaseId : Int) :
    Quiet frozen (listReleaseAssets releaseId) db := by
  unfold listReleaseAssets
  refine quiet_bind quiet_rejectIf fun _ d => ?_
  refine quiet_query fun _ _ => ?_
  trivial

theorem withAssets_keeps (releaseId : Int) (release : Option Release) :
    Quiet frozen (withAssets releaseId release) db := by
  cases release with
  | none => exact quiet_done
  | some release => exact quiet_bind (listReleaseAssets_keeps releaseId) fun _ _ => quiet_done

theorem getExistingDetail_keeps (releaseId : Int) :
    Quiet frozen (getExistingDetail releaseId) db := by
  unfold getExistingDetail getReleaseDetail
  refine quiet_bind ?_ fun _ d => quiet_okOr
  refine quiet_bind quiet_rejectIf fun _ d => ?_
  refine quiet_bind (quiet_query fun _ _ => ?_) fun release d => ?_
  · trivial
  · exact withAssets_keeps releaseId release

theorem getReleaseAsset_keeps (releaseId assetId : Int) :
    Quiet frozen (getReleaseAsset releaseId assetId) db := by
  unfold getReleaseAsset
  refine quiet_bind quiet_rejectIf fun _ d => ?_
  refine quiet_bind (quiet_query fun _ _ => ?_) fun _ d => quiet_okOr
  trivial

theorem getFileObject_keeps (fileObjectId : Int) :
    Quiet frozen (getFileObject fileObjectId) db := by
  unfold getFileObject
  refine quiet_bind (quiet_query fun _ _ => ?_) fun _ d => quiet_okOr
  trivial

theorem createFileObjectWithChecksum_keeps (input : CreateAssetInput) :
    Quiet frozen (createFileObjectWithChecksum input) db := by
  unfold createFileObjectWithChecksum
  refine quiet_bind quiet_check fun row d => ?_
  refine quiet_bind (quiet_query fun _ _ => ?_) fun id d => ?_
  · trivial
  · exact getFileObject_keeps id

theorem createReleaseAsset_keeps (releaseId : Int) (input : CreateAssetInput) :
    Quiet frozen (createReleaseAsset releaseId input) db := by
  unfold createReleaseAsset
  refine quiet_bind quiet_rejectIf fun _ d => ?_
  refine quiet_bind quiet_check fun platform d => ?_
  refine quiet_bind quiet_check fun architecture d => ?_
  refine quiet_bind quiet_check fun artifactKind d => ?_
  refine quiet_bind (quiet_query fun _ _ => ?_) fun release d => ?_
  · trivial
  refine quiet_bind quiet_okOr fun state d => ?_
  refine quiet_bind quiet_rejectIf fun _ d => ?_
  refine quiet_bind quiet_rejectIf fun _ d => ?_
  refine quiet_bind (quiet_query fun _ _ => ?_) fun active d => ?_
  · trivial
  refine quiet_bind quiet_rejectIf fun _ d => ?_
  refine quiet_bind (createFileObjectWithChecksum_keeps input) fun file d => ?_
  refine quiet_bind (quiet_query fun _ _ => ?_) fun assetId d => ?_
  · trivial
  exact getReleaseAsset_keeps releaseId assetId

theorem markPending_keeps (fileObjectId : Int) (checksum : String) (state : FileObject) :
    Quiet frozen (markPending fileObjectId checksum state) db := by
  unfold markPending
  refine quiet_bind quiet_rejectIf fun _ d => ?_
  refine quiet_bind quiet_rejectIf fun _ d => ?_
  refine quiet_bind (quiet_query fun _ _ => ?_) fun rows d => ?_
  · trivial
  split
  · exact getFileObject_keeps fileObjectId
  · unfold recheckUploaded
    refine quiet_bind (quiet_query fun _ _ => ?_) fun object d => ?_
    · trivial
    refine quiet_bind quiet_okOr fun current d => ?_
    exact quiet_bind quiet_rejectIf fun _ d => getFileObject_keeps fileObjectId

theorem markFileUploadedWithChecksum_keeps (fileObjectId : Int) (actualChecksum : String) :
    Quiet frozen (markFileUploadedWithChecksum fileObjectId actualChecksum) db := by
  unfold markFileUploadedWithChecksum
  refine quiet_bind quiet_rejectIf fun _ d => ?_
  refine quiet_bind quiet_check fun checksum d => ?_
  refine quiet_bind quiet_rejectIf fun _ d => ?_
  refine quiet_bind (quiet_query fun _ _ => ?_) fun object d => ?_
  · trivial
  refine quiet_bind quiet_okOr fun state d => ?_
  split
  · exact quiet_bind quiet_rejectIf fun _ d => getFileObject_keeps fileObjectId
  · exact markPending_keeps fileObjectId checksum state

theorem markReleaseAssetUploaded_keeps (releaseId assetId : Int) (actualChecksum : String) :
    Quiet frozen (markReleaseAssetUploaded releaseId assetId actualChecksum) db := by
  unfold markReleaseAssetUploaded
  refine quiet_bind ?_ fun _ d => ?_
  · unfold ensureReleaseIsMutable
    refine quiet_bind (quiet_query fun _ _ => ?_) fun _ d => quiet_rejectIf
    trivial
  refine quiet_bind (getReleaseAsset_keeps releaseId assetId) fun asset d => ?_
  refine quiet_bind (markFileUploadedWithChecksum_keeps asset.file.id actualChecksum) fun _ d => ?_
  exact getReleaseAsset_keeps releaseId assetId

theorem deleteReleaseAsset_keeps (releaseId assetId : Int) :
    Quiet frozen (deleteReleaseAsset releaseId assetId) db := by
  unfold deleteReleaseAsset
  refine quiet_bind (getReleaseAsset_keeps releaseId assetId) fun asset d => ?_
  refine quiet_bind (quiet_query fun _ _ => ?_) fun _ d => quiet_done
  trivial

theorem markReleaseVerified_keeps (releaseId : Int) :
    Quiet frozen (markReleaseVerified releaseId) db := by
  unfold markReleaseVerified
  refine quiet_bind (getExistingDetail_keeps releaseId) fun detail d => ?_
  refine quiet_bind quiet_rejectIf fun _ d => ?_
  refine quiet_bind quiet_rejectIf fun _ d => ?_
  refine quiet_bind (quiet_query fun _ _ => ?_) fun rows d => ?_
  · trivial
  exact quiet_bind quiet_rejectIf fun _ d => getExistingDetail_keeps releaseId

theorem withdrawRelease_call_keeps (releaseId : Int) (reason githubStatus : String) :
    Quiet frozen (withdrawRelease releaseId reason githubStatus) db := by
  unfold withdrawRelease
  refine quiet_bind quiet_rejectIf fun _ d => ?_
  refine quiet_bind quiet_check fun reason d => ?_
  refine quiet_bind quiet_check fun githubStatus d => ?_
  refine quiet_bind (quiet_query fun _ _ => ?_) fun rows d => ?_
  · trivial
  exact quiet_bind quiet_rejectIf fun _ d => getExistingDetail_keeps releaseId

/-- What was read of a release still says whether the release is internal, and verified. -/
def ReadBefore (releaseId : Int) (release : Option Release) (db : Db) : Prop :=
  ∀ r', db.select releaseId = some r' → ∃ r, release = some r ∧ r.channel = r'.channel ∧
    (r.verification = .verified → r'.verification = .verified)

theorem ReadBefore.later {releaseId : Int} {release : Option Release} {d d' : Db}
    (h : ReadBefore releaseId release d) (hd : Later d d') : ReadBefore releaseId release d' := by
  intro r'' hr''
  obtain ⟨r', hr', hchannel', hverified'⟩ := hd.rows releaseId r'' hr''
  obtain ⟨r, hr, hchannel, hverified⟩ := h r' hr'
  exact ⟨r, hr, hchannel.trans hchannel', fun hv => hverified' (hverified hv)⟩

theorem select_keeps (releaseId : Int) :
    Keeps frozen (ReadBefore releaseId) (query (.select releaseId)) db := by
  refine keeps_make (s := Statement.select releaseId) ?_
  intro b m hb hi hc
  obtain ⟨h1, h2⟩ := perform_keeps (m := m) (s := .select releaseId) hi hc trivial
  refine ⟨h1, h2, ?_⟩
  intro o ho c hbc
  change Later (perform m (.select releaseId) b).1 c at hbc
  change (perform m (.select releaseId) b).2 = _ at ho
  unfold perform at ho hbc
  split at ho
  · cases ho
  · rename_i hfault
    rw [hfault] at hbc
    obtain rfl : b.select releaseId = o := Except.ok.inj ho
    intro r' hr'
    exact hbc.rows releaseId r' hr'

/-- What is published was checked. -/
theorem ensurePublishable_keeps (current : Release) (releaseId : Int) (publish : Bool) :
    Keeps frozen (fun _ _ => publish = true → current.channel = .internal →
      current.verification = .verified) (ensurePublishable current releaseId publish) db := by
  cases publish with
  | false => exact keeps_done fun _ _ h => absurd h (by simp)
  | true =>
    unfold ensurePublishable
    apply keeps_bind (Q := fun _ _ => current.channel = .internal →
      current.verification = .verified)
    · apply keeps_rejectIf
      intro hchecked _ _ hinternal
      by_contra hv
      exact hchecked ⟨hinternal, hv⟩
    intro _ d _ hverified
    have hrest : ∀ d, Quiet frozen (ensureInternalDownloads current releaseId) d := by
      intro d
      unfold ensureInternalDownloads
      cases current.channel with
      | legacy => exact quiet_done
      | internal => exact quiet_bind (listReleaseAssets_keeps releaseId) fun _ _ => quiet_rejectIf
    refine Quiet.then (quiet_query fun _ _ => ?_) fun assets d => ?_
    · trivial
    refine Quiet.then quiet_rejectIf fun _ d => ?_
    exact keeps_mono (hrest d) fun _ _ _ _ => hverified

theorem pruneAfterPublish_keeps (publish : Bool) :
    Quiet frozen (pruneAfterPublish publish) db := by
  cases publish with
  | false => exact quiet_done
  | true =>
    unfold pruneAfterPublish getRetention prunePublishedReleases
    refine quiet_bind ?_ fun retention d => ?_
    · refine quiet_bind (quiet_query fun _ _ => ?_) fun _ d => ?_
      · trivial
      refine quiet_bind (quiet_query fun _ _ => ?_) fun _ d => quiet_okOr
      trivial
    refine quiet_bind quiet_check fun retention d => ?_
    refine quiet_query fun _ _ => ?_
    trivial

theorem applyUpdate_keeps (releaseId : Int) (versionName title notes : String) (publish : Bool) :
    Quiet frozen (applyUpdate releaseId versionName title notes publish) db := by
  unfold applyUpdate
  refine quiet_bind ?_ fun _ d => ?_
  · unfold ensureVersionNameAvailable
    refine quiet_bind (quiet_query fun _ _ => ?_) fun _ d => quiet_rejectIf
    trivial
  apply keeps_bind (select_keeps releaseId)
  intro release d₁ _ hread
  apply keeps_bind (Q := fun current d => ReadBefore releaseId (some current) d)
  · apply keeps_okOr
    rintro current rfl b hb
    exact hread.later hb
  intro current d₂ _ hread
  apply keeps_bind quiet_rejectIf
  intro _ d₃ h₂₃ _
  apply keeps_bind quiet_rejectIf
  intro _ d₄ h₃₄ _
  apply keeps_bind (ensurePublishable_keeps current releaseId _)
  intro _ d₅ h₄₅ hchecked
  refine quiet_bind (quiet_query fun d₆ h₅₆ => ?_) fun rows d => ?_
  · intro hpublish r' hr' hinternal
    have hread := (((hread.later h₂₃).later h₃₄).later h₄₅).later h₅₆
    obtain ⟨r, hr, hchannel, hverified⟩ := hread r' hr'
    obtain rfl := Option.some.inj hr
    exact hverified (hchecked hpublish (hchannel.trans hinternal))
  refine quiet_bind quiet_rejectIf fun _ d => ?_
  refine quiet_bind (pruneAfterPublish_keeps _) fun _ d => ?_
  exact getExistingDetail_keeps releaseId

theorem updateRelease_keeps (releaseId : Int) (input : UpdateReleaseInput) :
    Quiet frozen (updateRelease releaseId input) db := by
  unfold updateRelease
  refine quiet_bind quiet_rejectIf fun _ d => ?_
  refine quiet_bind quiet_check fun versionName d => ?_
  refine quiet_bind quiet_check fun title d => ?_
  refine quiet_bind quiet_check fun notes d => ?_
  exact applyUpdate_keeps releaseId versionName title notes input.publish

theorem start_keeps (request : Request) : Quiet frozen (start request) db := by
  cases request with
  | createReleaseAsset releaseId input =>
    exact quiet_bind (createReleaseAsset_keeps releaseId input) fun _ _ => quiet_done
  | markReleaseAssetUploaded releaseId assetId actualChecksum =>
    exact quiet_bind (markReleaseAssetUploaded_keeps releaseId assetId actualChecksum)
      fun _ _ => quiet_done
  | deleteReleaseAsset releaseId assetId =>
    exact quiet_bind (deleteReleaseAsset_keeps releaseId assetId) fun _ _ => quiet_done
  | markReleaseVerified releaseId =>
    exact quiet_bind (markReleaseVerified_keeps releaseId) fun _ _ => quiet_done
  | updateRelease releaseId input =>
    exact quiet_bind (updateRelease_keeps releaseId input) fun _ _ => quiet_done
  | withdrawRelease releaseId reason githubStatus =>
    exact quiet_bind (withdrawRelease_call_keeps releaseId reason githubStatus)
      fun _ _ => quiet_done

end Calls

/-- Tables in which no internal release was verified yet. -/
structure Fresh (db : Db) : Prop where
  ids : (db.releases.map (·.id)).Nodup
  objects : ∀ o ∈ db.objects, o.id < db.nextObject
  files : ∀ a ∈ db.assets, a.fileObjectId < db.nextObject
  unverified : ∀ r ∈ db.releases, r.channel = .internal →
    r.verification ≠ .verified ∧ r.status = .draft
  withdrawn : ∀ r ∈ db.releases, r.withdrawnAt.isSome = true → r.status = .published

theorem Fresh.inv {db : Db} (h : Fresh db) : Inv db where
  ids := h.ids
  objects := h.objects
  files := h.files
  complete := fun _ r hr hv => absurd hv.2 (h.unverified r (select_mem hr) hv.1).1
  published := by
    intro id r hr hinternal hstatus
    rw [(h.unverified r (select_mem hr) hinternal).2] at hstatus
    cases hstatus
  withdrawn := fun _ r hr => h.withdrawn r (select_mem hr)

/-- The database and the calls of a run. -/
abbrev Server := Serving Statement Statement.Answer AppError Response Db

/-- An internal release that is verified is complete, and one that is published is verified. -/
def VerifiedIsComplete (db : Db) : Prop :=
  ∀ id r, db.select id = some r → r.channel = .internal →
    (r.verification = .verified → hasCompleteInternalEvidence ⟨r, db.assetsOf id⟩ = true) ∧
    (r.status = .published → r.verification = .verified)

/-- From `db` to `db'`, verified internal releases kept their assets, with names and checksums, and
withdrawn ones were not changed nor are they offered. -/
def Frozen (db db' : Db) : Prop :=
  ∀ id r, db.select id = some r → r.channel = .internal →
    (r.verification = .verified → ∀ r', db'.select id = some r' →
      r'.verification = .verified ∧ db'.assetsOf id = db.assetsOf id) ∧
    (r.withdrawnAt.isSome = true →
      db'.select id = some r ∧ db'.assetsOf id = db.assetsOf id ∧ NotOffered db' id)

theorem frozen_of_later {db db' : Db} (h : Inv db) (h' : Inv db') (hl : Later db db') :
    Frozen db db' := by
  intro id r hr hinternal
  refine ⟨?_, ?_⟩
  · intro hv r' hr'
    exact ⟨(hl.verified hr ⟨hinternal, hv⟩ hr').2, hl.assets id r r' hr ⟨hinternal, hv⟩ hr'⟩
  · intro hw
    have hsame := hl.withdrawn id r hr hw
    have hv := h.published id r hr hinternal (h.withdrawn id r hr hw)
    exact ⟨hsame, hl.assets id r r hr ⟨hinternal, hv⟩ hsame, not_offered h'.ids hsame hw⟩

/-- In every run that adds assets to unverified releases only and marks complete releases only, a
verified release is complete and stays as it is. -/
theorem verified_release_is_frozen (db : Db) (h0 : Fresh db)
    (tr : List (Entry Server (Turn Request Moment) Unit)) (s : Server)
    (hrun : Run (serve perform start) { db := db, calls := [] } tr s)
    (hok : ∀ x ∈ tr, Meets StillOpen x.pre x.event) :
    VerifiedIsComplete s.db ∧ Frozen s.db s.db ∧ ∀ x ∈ tr, Frozen x.pre.db s.db := by
  obtain ⟨hinv, hpast⟩ :=
    serve_invariant (D := frozen) h0.inv (fun request d => start_keeps request) hrun hok
  refine ⟨?_, frozen_of_later hinv hinv (Later.refl _), ?_⟩
  · intro id r hr hinternal
    exact ⟨fun hv => hinv.complete id r hr ⟨hinternal, hv⟩, hinv.published id r hr hinternal⟩
  · exact fun x hx => frozen_of_later (hpast x hx).1 hinv (hpast x hx).2

/-- The six installers of a desktop release. -/
def installers : List (ReleasePlatform × Architecture × String) :=
  [(.windows, .x64, "windows-x64.exe"), (.windows, .arm64, "windows-arm64.exe"),
    (.macos, .x64, "macos-x64.dmg"), (.macos, .arm64, "macos-arm64.dmg"),
    (.linux, .x64, "linux-x64.AppImage"), (.linux, .arm64, "linux-arm64.AppImage")]

/-- The files of a complete release, each with its platform, its kind and its name. -/
def completeFiles : List (ReleasePlatform × Architecture × ArtifactKind × String) :=
  (installers.flatMap fun (platform, architecture, name) =>
    [(platform, architecture, .installer, name), (platform, architecture, .signature, name ++ ".minisig"),
      (platform, architecture, .sbom, name ++ ".cdx.json")])
  ++ ([(.linux, .universal, .manifest, "release-manifest.json"),
    (.linux, .universal, .signature, "release-manifest.json.minisig"),
    (.linux, .universal, .checksums, "SHA256SUMS"),
    (.linux, .universal, .signature, "SHA256SUMS.minisig")] :
      List (ReleasePlatform × Architecture × ArtifactKind × String))

def digest : String := "0123456789abcdef0123456789abcdef0123456789abcdef0123456789abcdef"

/-- An internal draft whose evidence is uploaded and waits to be verified. -/
def pendingDb : Db where
  releases := [
    { id := 1, versionName := "1.0.0", title := "", notes := "", status := .draft,
      channel := .internal, verification := .pending, manifestSha256 := digest, publishedAt := none,
      withdrawnAt := none, withdrawalReason := "", githubStatus := .none }]
  assets := (completeFiles.zipIdx 1).map fun ((platform, architecture, kind, _), i) =>
    { id := i, releaseId := 1, fileObjectId := i, platform := platform,
      architecture := architecture, artifactKind := kind, createdAt := 0 }
  nextAsset := 23
  objects := (completeFiles.zipIdx 1).map fun ((_, _, _, name), i) =>
    { id := i, folderId := none, originalFilename := name,
      contentType := "application/octet-stream", byteSize := 1, checksumSha256 := digest,
      status := .uploaded }
  nextObject := 23
  attached := []
  retention := some 5
  storageActive := true

theorem fresh_pendingDb : Fresh pendingDb where
  ids := by decide
  objects := by decide
  files := by decide
  unverified := by decide
  withdrawn := by decide

def calm : Moment := { now := 0, fault := none }

/-- The release is verified. -/
def verifyTurns : List (Turn Request Moment) :=
  [.begin (.markReleaseVerified 1), .resume 0 calm, .resume 0 calm, .resume 0 calm]

theorem pendingDb_complete (r : Release) (h : pendingDb.select 1 = some r) :
    hasCompleteInternalEvidence ⟨r, pendingDb.assetsOf 1⟩ = true := by
  have hall : ∀ r ∈ pendingDb.releases,
      hasCompleteInternalEvidence ⟨r, pendingDb.assetsOf 1⟩ = true := by decide +kernel
  exact hall r (select_mem h)

theorem pending_release_is_verified :
    ∃ tr s, exec (serve perform start) ({ db := pendingDb, calls := [] } : Server) verifyTurns =
        some (tr, s) ∧ s.db.releases.map (·.verification) = [.verified] ∧
      VerifiedIsComplete s.db ∧ Frozen s.db s.db ∧ ∀ x ∈ tr, Frozen x.pre.db s.db := by
  obtain ⟨r, hr⟩ : ∃ r, exec (serve perform start) ({ db := pendingDb, calls := [] } : Server)
      verifyTurns = some r := ⟨_, rfl⟩
  have hverified : (exec (serve perform start) ({ db := pendingDb, calls := [] } : Server)
      verifyTurns).map (fun r => r.2.db.releases.map (·.verification)) = some [.verified] := by
    decide +kernel
  rw [hr] at hverified
  refine ⟨r.1, r.2, hr, Option.some.inj hverified, ?_⟩
  apply verified_release_is_frozen pendingDb fresh_pendingDb r.1 r.2 (run_of_exec hr)
  intro x hx
  refine checks_exec (C := Meets StillOpen) hr ?_ hx
  refine ⟨trivial, meets_resume rfl trivial, meets_resume rfl trivial, meets_resume rfl ?_, trivial⟩
  exact pendingDb_complete

def extraAsset : CreateAssetInput where
  platform := "linux"
  architecture := "x64"
  artifactKind := "installer"
  originalFilename := "extra.deb"
  contentType := "application/octet-stream"
  byteSize := 1
  checksumSha256 := digest

/-- The release is verified between the check of an upload and its insert. -/
def overtakenTurns : List (Turn Request Moment) :=
  [.begin (.createReleaseAsset 1 extraAsset), .resume 0 calm,
    .begin (.markReleaseVerified 1), .resume 1 calm, .resume 1 calm, .resume 1 calm,
    .resume 0 calm, .resume 0 calm, .resume 0 calm, .resume 0 calm]

/-- The release is verified, with an asset more than were checked. -/
theorem asset_behind_verification :
    ∃ db, Fresh db ∧ ∃ tr s, Run (serve perform start) ({ db := db, calls := [] } : Server) tr s ∧
      ¬VerifiedIsComplete s.db := by
  obtain ⟨r, hr⟩ : ∃ r, exec (serve perform start) ({ db := pendingDb, calls := [] } : Server)
      overtakenTurns = some r := ⟨_, rfl⟩
  have hverified : (exec (serve perform start) ({ db := pendingDb, calls := [] } : Server)
      overtakenTurns).map (fun r => (r.2.db.select 1).map fun x =>
        (x.channel, x.verification, hasCompleteInternalEvidence ⟨x, r.2.db.assetsOf 1⟩)) =
      some (some (.internal, .verified, false)) := by
    decide +kernel
  rw [hr] at hverified
  obtain ⟨x, hx, hfacts⟩ := Option.map_eq_some_iff.mp (Option.some.inj hverified)
  simp only [Prod.mk.injEq] at hfacts
  refine ⟨pendingDb, fresh_pendingDb, r.1, r.2, run_of_exec hr, ?_⟩
  intro h
  have hcomplete := (h 1 x hx hfacts.1).1 hfacts.2.1
  rw [hfacts.2.2] at hcomplete
  cases hcomplete

end Releases
end Yuance
