import Yuance.Releases.Model

/-!
# Yuance.Releases.Evidence

When `has_complete_internal_evidence` takes a release for complete, against what
`desktop/src/release-manifest.mjs` asks for: one installer for each of the six targets of
`DESKTOP_RELEASE_TARGETS`.

* `CompleteRelease`: the release of the desktop's manifest.
* `ServedRelease`: the same, except that a universal build serves a platform as the two others do.
* `hasCompleteInternalEvidence_iff`: the server tells served releases from the others.
* `complete_release_iff`: it tells the complete ones, but for those with a universal build.
-/

namespace Yuance
namespace Releases

open Lib Files

/-- `DESKTOP_RELEASE_TARGETS`. -/
def desktopReleaseTargets : List (ReleasePlatform × Architecture) :=
  [(.macos, .x64), (.macos, .arm64), (.windows, .x64), (.windows, .arm64), (.linux, .x64),
    (.linux, .arm64)]

def installersOf (assets : List AssetSummary) : List AssetSummary :=
  assets.filter fun a => a.asset.artifactKind == .installer

def AssetSummary.target (a : AssetSummary) : ReleasePlatform × Architecture :=
  (a.asset.platform, a.asset.architecture)

/-- A file of the release and what it is there for. -/
def AssetSummary.evidence (a : AssetSummary) : String × ArtifactKind :=
  (a.file.originalFilename, a.asset.artifactKind)

/-- Every file is uploaded and there once, the files are those that go with the installers, and the
manifest is the recorded one. -/
structure EvidenceHolds (detail : ReleaseDetail) : Prop where
  uploaded : ∀ a ∈ detail.assets, a.isUploaded = true
  once : (detail.assets.map AssetSummary.evidence).Nodup
  files : (detail.assets.map AssetSummary.evidence).Perm
    (expectedEvidence (installersOf detail.assets))
  manifest : ∃ a ∈ detail.assets, a.evidence = ("release-manifest.json", .manifest) ∧
    a.file.checksumSha256 = detail.release.manifestSha256

/-- A complete internal release: the installers are exactly one for each target. -/
structure CompleteRelease (detail : ReleaseDetail) : Prop extends EvidenceHolds detail where
  targets : ((installersOf detail.assets).map AssetSummary.target).Perm desktopReleaseTargets

def HasInstaller (assets : List AssetSummary) (target : ReleasePlatform × Architecture) : Prop :=
  ∃ a ∈ installersOf assets, a.target = target

/-- Six installers serve the three platforms, with a universal build or with both others. -/
structure ServedRelease (detail : ReleaseDetail) : Prop extends EvidenceHolds detail where
  six : (installersOf detail.assets).length = 6
  served : ∀ platform ∈ desktopReleasePlatforms,
    HasInstaller detail.assets (platform, .universal) ∨
      (HasInstaller detail.assets (platform, .x64) ∧ HasInstaller detail.assets (platform, .arm64))

/-- One of the installers is a universal build. -/
def HasUniversal (assets : List AssetSummary) : Prop :=
  ∃ a ∈ installersOf assets, a.asset.architecture = .universal

/-! ## The checks of the server -/

theorem sameMembers_iff {α : Type} [DecidableEq α] {l l' : List α} :
    sameMembers l l' = true ↔ ∀ x, x ∈ l ↔ x ∈ l' := by
  unfold sameMembers
  rw [Bool.and_eq_true, List.all_eq_true, List.all_eq_true]
  constructor
  · intro ⟨h, h'⟩ x
    exact ⟨fun hx => List.contains_iff_mem.mp (h x hx),
      fun hx => List.contains_iff_mem.mp (h' x hx)⟩
  · intro h
    exact ⟨fun x hx => List.contains_iff_mem.mpr ((h x).mp hx),
      fun x hx => List.contains_iff_mem.mpr ((h x).mpr hx)⟩

/-- A list with the members of a list of `n` different ones is a rearrangement of it, where it is as
long. -/
theorem perm_of_sameMembers {α : Type} [DecidableEq α] {l l' : List α} {n : Nat}
    (hl : l.length = n) (hl' : l'.length = n) (hd : l'.dedup.length = n)
    (h : ∀ x, x ∈ l ↔ x ∈ l') : l.Nodup ∧ l.Perm l' := by
  have nodup_of {m : List α} (hm : m.dedup.length = m.length) : m.Nodup :=
    List.dedup_eq_self.mp ((List.dedup_sublist m).eq_of_length hm)
  have hnodup' : l'.Nodup := nodup_of (by rw [hd, hl'])
  have hset : l.toFinset = l'.toFinset := by
    ext x
    rw [List.mem_toFinset, List.mem_toFinset]
    exact h x
  have hcard : l.dedup.length = l'.dedup.length := by
    rw [← List.card_toFinset, ← List.card_toFinset, hset]
  have hnodup : l.Nodup := nodup_of (by rw [hcard, hd, hl])
  exact ⟨hnodup, (List.perm_ext_iff_of_nodup hnodup hnodup').mpr h⟩

theorem length_expectedEvidence (installers : List AssetSummary) :
    (expectedEvidence installers).length = 3 * installers.length + 4 := by
  unfold expectedEvidence
  rw [List.length_append, List.length_flatMap]
  simp [Nat.mul_comm]

theorem mem_expectedEvidence {installers : List AssetSummary} {e : String × ArtifactKind} :
    e ∈ expectedEvidence installers ↔
      (∃ i ∈ installers, e = (i.file.originalFilename, .installer) ∨
        e = (i.file.originalFilename ++ ".minisig", .signature) ∨
        e = (i.file.originalFilename ++ ".cdx.json", .sbom)) ∨
      e ∈ [("release-manifest.json", ArtifactKind.manifest),
        ("release-manifest.json.minisig", .signature), ("SHA256SUMS", .checksums),
        ("SHA256SUMS.minisig", .signature)] := by
  unfold expectedEvidence
  rw [List.mem_append, List.mem_flatMap]
  simp only [List.mem_cons, List.not_mem_nil, or_false]

theorem ne_of_suffix {name file ending : String} (h : ¬ ending.toList <:+ file.toList) :
    file ≠ name ++ ending := by
  intro heq
  refine h ⟨name.toList, ?_⟩
  rw [heq, String.toList_append]

/-- Only the manifest is called `release-manifest.json`: the signature of an installer of that name
would be the manifest's. -/
theorem manifest_evidence {installers : List AssetSummary} {kind : ArtifactKind}
    (hnodup : (expectedEvidence installers).Nodup)
    (h : ("release-manifest.json", kind) ∈ expectedEvidence installers) : kind = .manifest := by
  rcases mem_expectedEvidence.mp h with ⟨i, hi, hown | hsignature | hsbom⟩ | hfixed
  · have hname : "release-manifest.json" = i.file.originalFilename := congrArg Prod.fst hown
    have hsigned : ("release-manifest.json.minisig", ArtifactKind.signature) ∈
        installers.flatMap fun i =>
          [(i.file.originalFilename, ArtifactKind.installer),
            (i.file.originalFilename ++ ".minisig", .signature),
            (i.file.originalFilename ++ ".cdx.json", .sbom)] := by
      refine List.mem_flatMap.mpr ⟨i, hi, ?_⟩
      rw [← hname]
      simp
    exact absurd rfl ((List.nodup_append.mp hnodup).2.2 _ hsigned
      ("release-manifest.json.minisig", .signature) (by simp))
  · have hname : "release-manifest.json" = i.file.originalFilename ++ ".minisig" :=
      congrArg Prod.fst hsignature
    exact absurd hname (ne_of_suffix (by decide))
  · have hname : "release-manifest.json" = i.file.originalFilename ++ ".cdx.json" :=
      congrArg Prod.fst hsbom
    exact absurd hname (ne_of_suffix (by decide))
  · simp only [List.mem_cons, List.not_mem_nil, or_false, Prod.mk.injEq] at hfixed
    rcases hfixed with ⟨_, hk⟩ | ⟨hname, _⟩ | ⟨hname, _⟩ | ⟨hname, _⟩
    · exact hk
    all_goals exact absurd hname (by decide)

theorem hasInstaller_iff {assets : List AssetSummary} {platform : ReleasePlatform}
    {architecture : Architecture} (huploaded : ∀ a ∈ assets, a.isUploaded = true) :
    hasInstaller assets platform architecture = true ↔
      HasInstaller assets (platform, architecture) := by
  unfold hasInstaller HasInstaller installersOf AssetSummary.target
  rw [List.any_eq_true]
  constructor
  · rintro ⟨a, ha, h⟩
    simp only [Bool.and_eq_true, beq_iff_eq] at h
    obtain ⟨⟨⟨_, hkind⟩, hplatform⟩, harchitecture⟩ := h
    refine ⟨a, List.mem_filter.mpr ⟨ha, by rw [hkind]; rfl⟩, ?_⟩
    rw [hplatform, harchitecture]
  · rintro ⟨a, ha, h⟩
    obtain ⟨hmem, hkind⟩ := List.mem_filter.mp ha
    refine ⟨a, hmem, ?_⟩
    obtain ⟨hplatform, harchitecture⟩ := Prod.mk.inj h
    rw [huploaded a hmem, hkind, hplatform, harchitecture]
    simp

theorem hasCompleteDesktopDownloads_iff {assets : List AssetSummary}
    (huploaded : ∀ a ∈ assets, a.isUploaded = true) :
    hasCompleteDesktopDownloads assets = true ↔ ∀ platform ∈ desktopReleasePlatforms,
      HasInstaller assets (platform, .universal) ∨
        (HasInstaller assets (platform, .x64) ∧ HasInstaller assets (platform, .arm64)) := by
  unfold hasCompleteDesktopDownloads
  rw [List.all_eq_true]
  refine forall₂_congr fun platform _ => ?_
  rw [Bool.or_eq_true, Bool.and_eq_true, hasInstaller_iff huploaded, hasInstaller_iff huploaded,
    hasInstaller_iff huploaded]

theorem hasCompleteInternalEvidence_iff {detail : ReleaseDetail} :
    hasCompleteInternalEvidence detail = true ↔ ServedRelease detail := by
  have hactual : (detail.assets.map fun a => (a.file.originalFilename, a.asset.artifactKind)) =
      detail.assets.map AssetSummary.evidence := rfl
  have hinstallers : (detail.assets.filter fun a => a.asset.artifactKind == .installer) =
      installersOf detail.assets := rfl
  unfold hasCompleteInternalEvidence
  simp only [hactual, hinstallers, Bool.and_eq_true, beq_iff_eq, List.any_eq_true]
  constructor
  · rintro ⟨⟨⟨⟨⟨⟨hlength, huploaded⟩, hsix⟩, hserved⟩, hexpected⟩, hsame⟩, a, ha, hname, hsum⟩
    have huploaded := List.all_eq_true.mp huploaded
    have hserved := (hasCompleteDesktopDownloads_iff huploaded).mp hserved
    have hlong : (expectedEvidence (installersOf detail.assets)).length = 22 := by
      rw [length_expectedEvidence, hsix]
    obtain ⟨honce, hfiles⟩ := perm_of_sameMembers (by rw [List.length_map]; exact hlength) hlong
      hexpected (sameMembers_iff.mp hsame)
    refine ⟨⟨huploaded, honce, hfiles, a, ha, ?_, hsum⟩, hsix, hserved⟩
    have hmem : a.evidence ∈ expectedEvidence (installersOf detail.assets) :=
      hfiles.mem_iff.mp (List.mem_map_of_mem ha)
    have hevidence : a.evidence = ("release-manifest.json", a.asset.artifactKind) := by
      unfold AssetSummary.evidence
      rw [hname]
    rw [hevidence] at hmem ⊢
    rw [manifest_evidence (hfiles.nodup_iff.mp honce) hmem]
  · rintro ⟨⟨huploaded, honce, hfiles, a, ha, hevidence, hsum⟩, hsix, hserved⟩
    have hlong : (expectedEvidence (installersOf detail.assets)).length = 22 := by
      rw [length_expectedEvidence, hsix]
    have hlength : detail.assets.length = 22 := by
      rw [← hlong, ← hfiles.length_eq, List.length_map]
    refine ⟨⟨⟨⟨⟨⟨hlength, List.all_eq_true.mpr huploaded⟩, hsix⟩,
      (hasCompleteDesktopDownloads_iff huploaded).mpr hserved⟩, ?_⟩,
      sameMembers_iff.mpr fun x => hfiles.mem_iff⟩, a, ha, congrArg Prod.fst hevidence, hsum⟩
    rw [List.dedup_eq_self.mpr (hfiles.nodup_iff.mp honce), hlong]

/-! ## Complete and served releases -/

theorem hasInstaller_of_target {assets : List AssetSummary}
    {target : ReleasePlatform × Architecture}
    (h : ((installersOf assets).map AssetSummary.target).Perm desktopReleaseTargets)
    (ht : target ∈ desktopReleaseTargets) : HasInstaller assets target :=
  List.mem_map.mp (h.mem_iff.mpr ht)

theorem CompleteRelease.served {detail : ReleaseDetail} (h : CompleteRelease detail) :
    ServedRelease detail where
  toEvidenceHolds := h.toEvidenceHolds
  six := by
    rw [← List.length_map AssetSummary.target, h.targets.length_eq]
    rfl
  served := by
    intro platform hp
    refine .inr ⟨hasInstaller_of_target h.targets ?_, hasInstaller_of_target h.targets ?_⟩
    all_goals
      revert platform
      decide

theorem CompleteRelease.not_universal {detail : ReleaseDetail} (h : CompleteRelease detail) :
    ¬ HasUniversal detail.assets := by
  rintro ⟨a, ha, huniversal⟩
  have hmem : a.target ∈ desktopReleaseTargets := h.targets.mem_iff.mp (List.mem_map_of_mem ha)
  have hall : ∀ t ∈ desktopReleaseTargets, t.2 ≠ .universal := by decide
  exact hall a.target hmem huniversal

theorem ServedRelease.complete {detail : ReleaseDetail} (h : ServedRelease detail)
    (hu : ¬ HasUniversal detail.assets) : CompleteRelease detail where
  toEvidenceHolds := h.toEvidenceHolds
  targets := by
    have hboth : ∀ platform ∈ desktopReleasePlatforms,
        HasInstaller detail.assets (platform, .x64) ∧
          HasInstaller detail.assets (platform, .arm64) := by
      intro platform hp
      refine (h.served platform hp).resolve_left ?_
      rintro ⟨a, ha, ht⟩
      exact hu ⟨a, ha, congrArg Prod.snd ht⟩
    have hsub : desktopReleaseTargets ⊆ (installersOf detail.assets).map AssetSummary.target := by
      intro t ht
      have hcases : ∀ t ∈ desktopReleaseTargets, t.1 ∈ desktopReleasePlatforms ∧
          (t = (t.1, .x64) ∨ t = (t.1, .arm64)) := by decide
      obtain ⟨hp, heq | heq⟩ := hcases t ht
      · rw [heq]
        exact List.mem_map.mpr (hboth t.1 hp).1
      · rw [heq]
        exact List.mem_map.mpr (hboth t.1 hp).2
    have hnodup : desktopReleaseTargets.Nodup := by decide
    refine ((hnodup.subperm hsub).perm_of_length_le ?_).symm
    rw [List.length_map, h.six]
    decide

/-- The server and the desktop agree on a release exactly if no universal build stands in for the
others in it. -/
theorem complete_release_iff (detail : ReleaseDetail) :
    (hasCompleteInternalEvidence detail = true ↔ CompleteRelease detail) ↔
      ¬ (ServedRelease detail ∧ HasUniversal detail.assets) := by
  rw [hasCompleteInternalEvidence_iff]
  constructor
  · rintro hiff ⟨hserved, huniversal⟩
    exact (hiff.mp hserved).not_universal huniversal
  · intro hnot
    constructor
    · intro hserved
      exact hserved.complete fun huniversal => hnot ⟨hserved, huniversal⟩
    · exact CompleteRelease.served

/-- The installers of a release with a universal build for macOS beside the one for arm64. -/
def universalInstallers : List (ReleasePlatform × Architecture × String) :=
  [(.windows, .x64, "windows-x64.exe"), (.windows, .arm64, "windows-arm64.exe"),
    (.macos, .universal, "macos.dmg"), (.macos, .arm64, "macos-arm64.dmg"),
    (.linux, .x64, "linux-x64.AppImage"), (.linux, .arm64, "linux-arm64.AppImage")]

/-- The files of the whole release. -/
def releaseFiles : List (ReleasePlatform × Architecture × ArtifactKind × String) :=
  [(.linux, .universal, .manifest, "release-manifest.json"),
    (.linux, .universal, .signature, "release-manifest.json.minisig"),
    (.linux, .universal, .checksums, "SHA256SUMS"),
    (.linux, .universal, .signature, "SHA256SUMS.minisig")]

def universalFiles : List (ReleasePlatform × Architecture × ArtifactKind × String) :=
  (universalInstallers.flatMap fun (platform, architecture, name) =>
    [(platform, architecture, .installer, name),
      (platform, architecture, .signature, name ++ ".minisig"),
      (platform, architecture, .sbom, name ++ ".cdx.json")])
  ++ releaseFiles

def universalRelease : ReleaseDetail where
  release :=
    { id := 1, versionName := "1.0.0", title := "", notes := "", status := .draft,
      channel := .internal, verification := .pending, manifestSha256 := "00", publishedAt := none,
      withdrawnAt := none, withdrawalReason := "", githubStatus := .none }
  assets := universalFiles.zipIdx.map fun ((platform, architecture, kind, name), i) =>
    ⟨⟨i, 1, i, platform, architecture, kind, 0⟩,
      ⟨i, none, name, "application/octet-stream", 1, "00", .uploaded⟩⟩

theorem universal_build_passes_for_both :
    ¬ (hasCompleteInternalEvidence universalRelease = true ↔ CompleteRelease universalRelease) := by
  intro hiff
  have hcomplete := hiff.mp (by decide +kernel)
  have huniversal : ((installersOf universalRelease.assets).map AssetSummary.target).contains
      (.macos, .universal) = true := by decide +kernel
  exact absurd (hcomplete.targets.mem_iff.mp (List.contains_iff_mem.mp huniversal)) (by decide)

end Releases
end Yuance
