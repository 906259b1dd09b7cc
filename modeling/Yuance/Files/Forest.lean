import Yuance.Files.Folders
import Yuance.Lib.Forest

/-!
# Yuance.Files.Forest

The folders of a project stay a forest as long as a call that checked a folder writes before the
folder is deleted.

* `folderTree_closed`: `delete_folder` takes a folder with everything active below it.
* `execute_keeps`: what one statement keeps.
* `folder_forest_is_kept`: every run whose writes find the checked folder still active; `get_folder_tree`
  then lists every active folder of the project once.
* `create_folder_under_deleted_parent`: a run in which the parent is deleted between the check and the
  insert.
-/

namespace Yuance
namespace Files

open Lib Platform

/-- The folder is there and not deleted. -/
def IsActive (db : Db) (id : Int) : Prop := ∃ f ∈ db.folders, f.id = id ∧ f.status = .active

/-- The parent of an active folder is an active folder of the same project, and no file points at a
deleted folder. -/
structure Forest (db : Db) : Prop where
  parents : ∀ f ∈ db.folders, f.status = .active → ∀ p, f.parentId = some p →
    ∃ g ∈ db.folders, g.id = p ∧ g.status = .active ∧ g.projectId = f.projectId
  objects : ∀ o ∈ db.objects, ∀ p, o.folderId = some p → IsActive db p

/-- What every statement keeps. -/
structure Inv (db : Db) : Prop extends Forest db where
  ids : (db.folders.map (·.id)).Nodup
  fresh : ∀ f ∈ db.folders, f.id < db.nextFolder
  order : ∀ f ∈ db.folders, ∀ p, f.parentId = some p → p < f.id

/-- Folders stay where they are. -/
def Later (db db' : Db) : Prop :=
  ∀ f ∈ db.folders, ∃ g ∈ db'.folders, g.id = f.id ∧ g.projectId = f.projectId

theorem Later.refl (db : Db) : Later db db := fun f hf => ⟨f, hf, rfl, rfl⟩

theorem Later.trans (a b c : Db) (h : Later a b) (h' : Later b c) : Later a c := by
  intro f hf
  obtain ⟨g, hg, hid, hproject⟩ := h f hf
  obtain ⟨k, hk, hid', hproject'⟩ := h' g hg
  exact ⟨k, hk, hid'.trans hid, hproject'.trans hproject⟩

section Tree

variable {db : Db}

theorem mem_activeChildren {ids : List Int} {x : Int} :
    x ∈ db.activeChildren ids ↔
      ∃ f ∈ db.folders, f.id = x ∧ f.status = .active ∧ ∃ p ∈ ids, f.parentId = some p := by
  unfold Db.activeChildren
  simp only [List.mem_map, List.mem_filter, Db.isActive, Bool.and_eq_true, beq_iff_eq,
    Option.any_eq_true, List.contains_iff_mem]
  constructor
  · rintro ⟨f, ⟨hf, ha, p, hp, hmem⟩, rfl⟩
    exact ⟨f, hf, rfl, ha, p, hmem, hp⟩
  · rintro ⟨f, hf, rfl, ha, p, hmem, hp⟩
    exact ⟨f, ⟨hf, ha, p, hp, hmem⟩, rfl⟩

/-- The ids of the tree, level by level. -/
theorem mem_folderTreeFrom {n : Nat} {ids : List Int} {x : Int} :
    x ∈ db.folderTreeFrom n ids ↔ ∃ k, k < n ∧ x ∈ db.activeChildren^[k] ids := by
  induction n generalizing ids with
  | zero => simp [Db.folderTreeFrom]
  | succ n ih =>
    rw [Db.folderTreeFrom, List.mem_append, ih]
    constructor
    · rintro (h | ⟨k, hk, h⟩)
      · exact ⟨0, by omega, h⟩
      · exact ⟨k + 1, by omega, h⟩
    · rintro ⟨k, hk, h⟩
      cases k with
      | zero => exact .inl h
      | succ k => exact .inr ⟨k, by omega, h⟩

/-- A level is at least as far up as its number. -/
theorem rank_of_level (horder : ∀ f ∈ db.folders, ∀ p, f.parentId = some p → p < f.id)
    {ids : List Int} (hids : ∀ x ∈ ids, x ∈ db.folders.map (·.id)) {k : Nat} {x : Int}
    (h : x ∈ db.activeChildren^[k] ids) : k < rank (db.folders.map (·.id)) x := by
  induction k generalizing x with
  | zero => exact rank_pos (hids x h)
  | succ k ih =>
    rw [Function.iterate_succ_apply'] at h
    obtain ⟨f, hf, rfl, -, p, hp, hparent⟩ := mem_activeChildren.mp h
    have hlt := rank_lt (List.mem_map_of_mem (f := (·.id)) hf) (horder f hf p hparent)
    have := ih hp
    omega

theorem folderTree_closed (horder : ∀ f ∈ db.folders, ∀ p, f.parentId = some p → p < f.id)
    {id p : Int} (hp : p ∈ db.folderTree id) {f : FileFolder} (hf : f ∈ db.folders)
    (ha : f.status = .active) (hparent : f.parentId = some p) : f.id ∈ db.folderTree id := by
  unfold Db.folderTree at hp ⊢
  obtain ⟨k, hk, hmem⟩ := mem_folderTreeFrom.mp hp
  have hnext : f.id ∈ db.activeChildren^[k + 1]
      ((db.folders.filter fun f => f.id == id && Db.isActive f).map (·.id)) := by
    rw [Function.iterate_succ_apply']
    exact mem_activeChildren.mpr ⟨f, hf, rfl, ha, p, hmem, hparent⟩
  refine mem_folderTreeFrom.mpr ⟨k + 1, ?_, hnext⟩
  have hrank := rank_of_level horder (fun x hx => ?_) hnext
  · have := rank_le_length (db.folders.map (·.id)) f.id
    rw [List.length_map] at this
    omega
  · obtain ⟨g, hg, rfl⟩ := List.mem_map.mp hx
    exact List.mem_map_of_mem (List.mem_filter.mp hg).1

end Tree

section Statements

variable {db : Db}

/-- Statements that leave the tables of folders and files alone. -/
theorem keeps_same (h : Inv db) : Inv db ∧ Later db db := ⟨h, .refl db⟩

/-- An update that keeps what the invariant looks at. -/
theorem updateFolders_keeps (h : Inv db) {p : FileFolder → Bool} {f : FileFolder → FileFolder}
    (hf : ∀ x, (f x).id = x.id ∧ (f x).parentId = x.parentId ∧ (f x).projectId = x.projectId ∧
      (f x).status = x.status) :
    Inv { db with folders := updateWhere p f db.folders } ∧
      Later db { db with folders := updateWhere p f db.folders } := by
  have same : ∀ x ∈ db.folders, ∃ y ∈ updateWhere p f db.folders, y.id = x.id ∧
      y.parentId = x.parentId ∧ y.projectId = x.projectId ∧ y.status = x.status := by
    intro x hx
    refine ⟨if p x then f x else x, mem_updateWhere.mpr ⟨x, hx, rfl⟩, ?_⟩
    split
    · exact hf x
    · exact ⟨rfl, rfl, rfl, rfl⟩
  have back : ∀ y ∈ updateWhere p f db.folders, ∃ x ∈ db.folders, y.id = x.id ∧
      y.parentId = x.parentId ∧ y.projectId = x.projectId ∧ y.status = x.status := by
    intro y hy
    obtain ⟨x, hx, rfl⟩ := mem_updateWhere.mp hy
    refine ⟨x, hx, ?_⟩
    split
    · exact hf x
    · exact ⟨rfl, rfl, rfl, rfl⟩
  refine ⟨⟨⟨?_, ?_⟩, ?_, ?_, ?_⟩, ?_⟩
  · intro y hy ha q hq
    obtain ⟨x, hx, -, hparent, hproject, hstatus⟩ := back y hy
    obtain ⟨g, hg, hid, hga, hgp⟩ := h.parents x hx (hstatus ▸ ha) q (hparent ▸ hq)
    obtain ⟨g', hg', hid', -, hproject', hstatus'⟩ := same g hg
    exact ⟨g', hg', hid'.trans hid, hstatus'.trans hga, by rw [hproject', hgp, hproject]⟩
  · intro o ho q hq
    obtain ⟨g, hg, hid, hga⟩ := h.objects o ho q hq
    obtain ⟨g', hg', hid', -, -, hstatus'⟩ := same g hg
    exact ⟨g', hg', hid'.trans hid, hstatus'.trans hga⟩
  · show ((updateWhere p f db.folders).map (·.id)).Nodup
    rw [map_updateWhere (fun x : FileFolder => x.id) fun x => (hf x).1]
    exact h.ids
  · intro y hy
    obtain ⟨x, hx, hid, -⟩ := back y hy
    rw [hid]
    exact h.fresh x hx
  · intro y hy q hq
    obtain ⟨x, hx, hid, hparent, -⟩ := back y hy
    rw [hid]
    exact h.order x hx q (hparent ▸ hq)
  · intro x hx
    obtain ⟨y, hy, hid, -, hproject, -⟩ := same x hx
    exact ⟨y, hy, hid, hproject⟩

theorem insertFolder_keeps (h : Inv db) {parentId : Option Int} {projectId : Int}
    {name description : String} {now : Int} (hactive : ∀ p, parentId = some p → IsActive db p)
    (hproject : ∀ p, parentId = some p → ∃ g ∈ db.folders, g.id = p ∧ g.projectId = projectId) :
    Inv (db.insertFolder parentId projectId name description now).1 ∧
      Later db (db.insertFolder parentId projectId name description now).1 := by
  unfold Db.insertFolder
  split
  · exact keeps_same h
  · refine ⟨⟨⟨?_, ?_⟩, ?_, ?_, ?_⟩, ?_⟩
    · intro f hf ha p hp
      rcases List.mem_append.mp hf with hf | hf
      · obtain ⟨g, hg, hid, hga, hgp⟩ := h.parents f hf ha p hp
        exact ⟨g, List.mem_append_left _ hg, hid, hga, hgp⟩
      · obtain rfl := List.mem_singleton.mp hf
        obtain ⟨g, hg, hid, hga⟩ := hactive p hp
        obtain ⟨g', hg', hid', hgp⟩ := hproject p hp
        obtain rfl : g = g' := eq_of_key h.ids hg hg' (hid.trans hid'.symm)
        exact ⟨g, List.mem_append_left _ hg, hid, hga, hgp⟩
    · intro o ho p hp
      obtain ⟨g, hg, hid, hga⟩ := h.objects o ho p hp
      exact ⟨g, List.mem_append_left _ hg, hid, hga⟩
    · rw [List.map_append, List.nodup_append]
      refine ⟨h.ids, by simp, ?_⟩
      intro a ha b hb
      obtain ⟨f, hf, rfl⟩ := List.mem_map.mp ha
      obtain rfl : b = db.nextFolder := by simpa using hb
      exact (h.fresh f hf).ne
    · intro f hf
      show f.id < db.nextFolder + 1
      rcases List.mem_append.mp hf with hf | hf
      · have := h.fresh f hf
        omega
      · obtain rfl := List.mem_singleton.mp hf
        show db.nextFolder < db.nextFolder + 1
        omega
    · intro f hf p hp
      rcases List.mem_append.mp hf with hf | hf
      · exact h.order f hf p hp
      · obtain rfl := List.mem_singleton.mp hf
        obtain ⟨g, hg, rfl, -⟩ := hactive p hp
        exact h.fresh g hg
    · exact fun f hf => ⟨f, List.mem_append_left _ hf, rfl, rfl⟩

theorem deleteFolderTree_keeps (h : Inv db) (id : Int) :
    Inv (db.deleteFolderTree id) ∧ Later db (db.deleteFolderTree id) := by
  have hkey : ((db.deleteFolderTree id).folders.map (·.id)) = db.folders.map (·.id) := by
    apply map_updateWhere (fun x : FileFolder => x.id)
    exact fun _ => rfl
  have mem : ∀ y ∈ (db.deleteFolderTree id).folders, ∃ x ∈ db.folders,
      y = if (db.folderTree id).contains x.id then { x with status := .deleted } else x :=
    fun y hy => mem_updateWhere.mp hy
  -- a folder outside the tree stays as it is
  have outside : ∀ x ∈ db.folders, x.id ∉ db.folderTree id →
      x ∈ (db.deleteFolderTree id).folders := by
    intro x hx hout
    refine mem_updateWhere.mpr ⟨x, hx, ?_⟩
    rw [if_neg (by simpa using hout)]
  have active : ∀ y ∈ (db.deleteFolderTree id).folders, y.status = .active →
      y ∈ db.folders ∧ y.id ∉ db.folderTree id := by
    intro y hy ha
    obtain ⟨x, hx, rfl⟩ := mem y hy
    split at ha
    · cases ha
    · rename_i hout
      rw [if_neg hout]
      exact ⟨hx, by simpa using hout⟩
  refine ⟨⟨⟨?_, ?_⟩, ?_, ?_, ?_⟩, ?_⟩
  · intro f hf ha p hp
    obtain ⟨hmem, hout⟩ := active f hf ha
    obtain ⟨g, hg, hid, hga, hgp⟩ := h.parents f hmem ha p hp
    refine ⟨g, outside g hg ?_, hid, hga, hgp⟩
    intro hin
    exact hout (folderTree_closed h.order (hid ▸ hin) hmem ha hp)
  · intro o ho p hp
    obtain ⟨o', ho', rfl⟩ := mem_updateWhere.mp ho
    split at hp
    · cases hp
    · rename_i hout
      rw [Option.any_eq_true] at hout
      obtain ⟨g, hg, rfl, hga⟩ := h.objects o' ho' p hp
      refine ⟨g, outside g hg ?_, rfl, hga⟩
      intro hin
      exact hout ⟨g.id, hp, by simpa using hin⟩
  · rw [hkey]
    exact h.ids
  · intro y hy
    obtain ⟨x, hx, rfl⟩ := mem y hy
    split
    · exact h.fresh x hx
    · exact h.fresh x hx
  · intro y hy p hp
    obtain ⟨x, hx, rfl⟩ := mem y hy
    by_cases hin : (db.folderTree id).contains x.id = true
    · rw [if_pos hin] at hp ⊢
      exact h.order x hx p hp
    · rw [if_neg hin] at hp ⊢
      exact h.order x hx p hp
  · intro x hx
    refine ⟨_, mem_updateWhere.mpr ⟨x, hx, rfl⟩, ?_⟩
    split
    · exact ⟨rfl, rfl⟩
    · exact ⟨rfl, rfl⟩

/-- A change of the files alone. -/
theorem objects_keep {db' : Db} (h : Inv db) (hfolders : db'.folders = db.folders)
    (hnext : db'.nextFolder = db.nextFolder)
    (hobjects : ∀ o ∈ db'.objects, ∀ p, o.folderId = some p → IsActive db p) :
    Inv db' ∧ Later db db' := by
  refine ⟨⟨⟨?_, ?_⟩, ?_, ?_, ?_⟩, ?_⟩
  · rw [hfolders]
    exact h.parents
  · intro o ho p hp
    unfold IsActive
    rw [hfolders]
    exact hobjects o ho p hp
  · rw [hfolders]
    exact h.ids
  · rw [hfolders, hnext]
    exact h.fresh
  · rw [hfolders]
    exact h.order
  · intro f hf
    rw [hfolders]
    exact ⟨f, hf, rfl, rfl⟩

theorem renameFolder_keeps (h : Inv db) (id : Int) (name : String) :
    Inv (db.renameFolder id name).1 ∧ Later db (db.renameFolder id name).1 := by
  unfold Db.renameFolder
  split
  · exact keeps_same h
  · exact updateFolders_keeps h fun x => ⟨rfl, rfl, rfl, rfl⟩

theorem insertAttachment_keeps (h : Inv db) {row : Db.AttachmentRow}
    (hrow : ∀ p, row.folderId = some p → IsActive db p) :
    Inv (db.insertAttachment row).1 ∧ Later db (db.insertAttachment row).1 := by
  unfold Db.insertAttachment
  split
  · exact keeps_same h
  · refine objects_keep h ?_ ?_ ?_
    · rfl
    · rfl
    intro o ho p hp
    rcases List.mem_append.mp ho with ho | ho
    · exact h.objects o ho p hp
    · obtain rfl := List.mem_singleton.mp ho
      exact hrow p hp

theorem setFileFolder_keeps (h : Inv db) {fileObjectId : Int} {folderId : Option Int}
    (hfolder : ∀ p, folderId = some p → IsActive db p) :
    Inv (db.setFileFolder fileObjectId folderId).1 ∧
      Later db (db.setFileFolder fileObjectId folderId).1 := by
  unfold Db.setFileFolder
  split
  · exact keeps_same h
  · refine objects_keep h ?_ ?_ ?_
    · rfl
    · rfl
    intro o ho p hp
    obtain ⟨o', ho', rfl⟩ := mem_updateWhere.mp ho
    split at hp
    · exact hfolder p hp
    · exact h.objects o' ho' p hp

/-- The folder that the call checked is still active when the call writes. -/
def StillActive (db : Db) : Statement → Prop
  | .insertFolder (some p) _ _ _ => IsActive db p
  | .insertAttachment row => ∀ p, row.folderId = some p → IsActive db p
  | .setFileFolder _ (some p) => IsActive db p
  | _ => True

/-- The parent of a new folder belongs to its project. -/
def SameProject (db : Db) : Statement → Prop
  | .insertFolder (some p) projectId _ _ => ∃ g ∈ db.folders, g.id = p ∧ g.projectId = projectId
  | _ => True

theorem execute_keeps (h : Inv db) {now : Int} {s : Statement} (hs : StillActive db s)
    (hp : SameProject db s) :
    Inv (execute now db s).1 ∧ Later db (execute now db s).1 := by
  cases s with
  | selectFolder id => exact keeps_same h
  | countFolders projectId parentId name excludeId => exact keeps_same h
  | insertFolder parentId projectId name description =>
    apply insertFolder_keeps h
    · rintro p rfl
      exact hs
    · rintro p rfl
      exact hp
  | renameFolder id name => exact renameFolder_keeps h id name
  | describeFolder id description => exact updateFolders_keeps h fun x => ⟨rfl, rfl, rfl, rfl⟩
  | deleteFolderTree id => exact deleteFolderTree_keeps h id
  | insertAttachment row => exact insertAttachment_keeps h hs
  | setFileFolder fileObjectId folderId =>
    apply setFileFolder_keeps h
    rintro p rfl
    exact hs
  | selectObject id => exact keeps_same h
  | selectAttachment id => exact keeps_same h

theorem perform_keeps (h : Inv db) {m : Moment} {s : Statement} (hs : StillActive db s)
    (hp : SameProject db s) : Inv (perform m s db).1 ∧ Later db (perform m s db).1 := by
  unfold perform
  split
  · exact keeps_same h
  · exact execute_keeps h hs hp

end Statements

/-- What the calls keep beside each other. -/
def forest : Discipline Statement Statement.Answer AppError Db Moment where
  perform := perform
  R := Later
  I := Inv
  C := StillActive
  refl := Later.refl
  trans := Later.trans

section Calls

variable {db : Db}

theorem quiet_query {s : Statement} (hs : ∀ d, Later db d → SameProject d s) :
    Quiet forest (query s) db := by
  apply keeps_make
  intro b m hb hi hc
  obtain ⟨h1, h2⟩ := perform_keeps (m := m) hi hc (hs b hb)
  exact ⟨h1, h2, fun _ _ _ _ => trivial⟩

/-- A folder that was found is there from then on, in the same project. -/
def Found (id : Int) (folder : FileFolder) (db : Db) : Prop :=
  ∃ g ∈ db.folders, g.id = id ∧ g.projectId = folder.projectId

theorem found_of_select {id : Int} {folder : FileFolder} {d d' : Db}
    (h : d.selectFolder id = some folder) (hd : Later d d') : Found id folder d' := by
  have hmem := List.mem_of_find?_eq_some h
  have hid : folder.id = id := by
    have := List.find?_some h
    simp only [Bool.and_eq_true, beq_iff_eq] at this
    exact this.1
  obtain ⟨g, hg, hgid, hproject⟩ := hd folder hmem
  exact ⟨g, hg, hgid.trans hid, hproject⟩

theorem getFolder_keeps (id : Int) : Keeps forest (Found id) (getFolder id) db := by
  have hselect : ∀ d, Keeps forest (fun o d' => ∀ folder, o = some folder → Found id folder d')
      (query (.selectFolder id)) d := by
    intro d
    refine keeps_make (s := Statement.selectFolder id) ?_
    intro b m hb hi hc
    obtain ⟨h1, h2⟩ := perform_keeps (m := m) (s := .selectFolder id) hi hc trivial
    refine ⟨h1, h2, ?_⟩
    intro o ho c hbc folder hfolder
    change Later (perform m (.selectFolder id) b).1 c at hbc
    change (perform m (.selectFolder id) b).2 = _ at ho
    unfold perform at ho hbc
    split at ho
    · cases ho
    · rw [hfolder] at ho
      have hsel : b.selectFolder id = some folder := Except.ok.inj ho
      rename_i hfault
      rw [hfault] at hbc
      exact found_of_select hsel hbc
  have hoptional : Keeps forest (fun o d' => ∀ folder, o = some folder → Found id folder d')
      (getFolderOptional id) db := Quiet.then quiet_rejectIf fun _ d => hselect d
  apply keeps_bind hoptional
  intro o d _ hfound
  apply keeps_okOr
  intro folder ho b hb
  obtain ⟨g, hg, hid, hproject⟩ := hfound folder ho
  obtain ⟨g', hg', hid', hproject'⟩ := hb g hg
  exact ⟨g', hg', hid'.trans hid, hproject'.trans hproject⟩

theorem ensureFolderNameAvailable_keeps (projectId : Int) (parentId : Option Int) (name : String)
    (excludeId : Option Int) :
    Quiet forest (ensureFolderNameAvailable projectId parentId name excludeId) db := by
  unfold ensureFolderNameAvailable
  refine quiet_bind (quiet_query fun _ _ => ?_) fun _ d => ?_
  · trivial
  · exact quiet_rejectIf

/-- The parent that was checked is in the project from then on. -/
theorem ensureParent_keeps (input : CreateFolderInput) :
    Keeps forest (fun _ d => ∀ p, input.parentId = some p →
      ∃ g ∈ d.folders, g.id = p ∧ g.projectId = input.projectId) (ensureParent input) db := by
  unfold ensureParent
  cases input.parentId with
  | none => exact keeps_done fun _ _ p hp => absurd hp (by simp)
  | some parentId =>
    refine Quiet.then quiet_rejectIf fun _ d => ?_
    apply keeps_bind (getFolder_keeps parentId)
    intro folder d' _ hfound
    apply keeps_rejectIf
    intro hsame b hb p hp
    obtain rfl := Option.some.inj hp
    obtain ⟨g, hg, hid, hproject⟩ := hfound
    obtain ⟨g', hg', hid', hproject'⟩ := hb g hg
    refine ⟨g', hg', hid'.trans hid, ?_⟩
    rw [hproject', hproject]
    exact not_not.mp hsame

theorem createFolder_keeps (input : CreateFolderInput) :
    Quiet forest (createFolder input) db := by
  unfold createFolder
  refine quiet_bind quiet_check fun name d => ?_
  apply keeps_bind (ensureParent_keeps input)
  intro _ d₁ _ hparent
  apply keeps_bind (ensureFolderNameAvailable_keeps input.projectId input.parentId name none)
  intro _ d₂ h₁₂ _
  refine quiet_bind (quiet_query fun d₃ h₂₃ => ?_) fun id d₃ => ?_
  · cases hp : input.parentId with
    | none => trivial
    | some p =>
      obtain ⟨g, hg, hid, hproject⟩ := hparent p hp
      obtain ⟨g', hg', hid', hproject'⟩ := Later.trans _ _ _ h₁₂ h₂₃ g hg
      exact ⟨g', hg', hid'.trans hid, hproject'.trans hproject⟩
  · exact (getFolder_keeps id).quiet

theorem updateName_keeps (folder : FileFolder) (id : Int) (name : Option String) :
    Quiet forest (updateName folder id name) db := by
  cases name with
  | none => exact quiet_done
  | some name =>
    refine quiet_bind quiet_check fun name d => ?_
    refine quiet_bind (ensureFolderNameAvailable_keeps _ _ _ _) fun _ d => ?_
    refine quiet_query fun _ _ => ?_
    trivial

theorem updateDescription_keeps (id : Int) (description : Option String) :
    Quiet forest (updateDescription id description) db := by
  cases description with
  | none => exact quiet_done
  | some description =>
    refine quiet_query fun _ _ => ?_
    trivial

theorem updateFolder_keeps (id : Int) (input : UpdateFolderInput) :
    Quiet forest (updateFolder id input) db := by
  unfold updateFolder
  refine quiet_bind (getFolder_keeps id).quiet fun folder d => ?_
  refine quiet_bind (updateName_keeps folder id input.name) fun _ d => ?_
  refine quiet_bind (updateDescription_keeps id input.description) fun _ d => ?_
  exact (getFolder_keeps id).quiet

theorem deleteFolder_keeps (id : Int) : Quiet forest (deleteFolder id) db := by
  unfold deleteFolder
  refine quiet_bind (getFolder_keeps id).quiet fun folder d => ?_
  refine quiet_bind (quiet_query fun _ _ => ?_) fun _ d => ?_
  · trivial
  · exact quiet_done

theorem ensureAttachmentFolder_keeps (input : CreateAttachmentInput) :
    Quiet forest (ensureAttachmentFolder input) db := by
  unfold ensureAttachmentFolder
  cases input.folderId with
  | none => exact quiet_done
  | some folderId =>
    refine quiet_bind (getFolder_keeps folderId).quiet fun folder d => ?_
    refine quiet_bind quiet_okOr fun projectId d => ?_
    exact quiet_rejectIf

theorem createAttachment_keeps (input : CreateAttachmentInput) (checksumSha256 : String) :
    Quiet forest (createAttachment input checksumSha256) db := by
  unfold createAttachment
  refine quiet_bind quiet_check fun row d => ?_
  refine quiet_bind (ensureAttachmentFolder_keeps input) fun _ d => ?_
  refine quiet_bind (quiet_query fun _ _ => ?_) fun id d => ?_
  · trivial
  refine quiet_bind quiet_rejectIf fun _ d => ?_
  refine quiet_bind (quiet_query fun _ _ => ?_) fun attachment d => ?_
  · trivial
  exact quiet_okOr

theorem ensureTargetFolder_keeps (folderId : Option Int) :
    Quiet forest (ensureTargetFolder folderId) db := by
  cases folderId with
  | none => exact quiet_done
  | some folderId =>
    refine quiet_bind quiet_rejectIf fun _ d => ?_
    refine quiet_bind (getFolder_keeps folderId).quiet fun _ d => ?_
    exact quiet_done

theorem moveFileToFolder_keeps (fileObjectId : Int) (folderId : Option Int) :
    Quiet forest (moveFileToFolder fileObjectId folderId) db := by
  unfold moveFileToFolder
  refine quiet_bind quiet_rejectIf fun _ d => ?_
  refine quiet_bind (ensureTargetFolder_keeps folderId) fun _ d => ?_
  refine quiet_bind (quiet_query fun _ _ => ?_) fun _ d => ?_
  · trivial
  refine quiet_bind (quiet_query fun _ _ => ?_) fun object d => ?_
  · trivial
  exact quiet_okOr

theorem start_keeps (request : Request) : Quiet forest (start request) db := by
  cases request with
  | createFolder input => exact quiet_bind (createFolder_keeps input) fun _ _ => quiet_done
  | updateFolder id input => exact quiet_bind (updateFolder_keeps id input) fun _ _ => quiet_done
  | deleteFolder id => exact quiet_bind (deleteFolder_keeps id) fun _ _ => quiet_done
  | createAttachment input checksum =>
    exact quiet_bind (createAttachment_keeps input checksum) fun _ _ => quiet_done
  | moveFileToFolder fileObjectId folderId =>
    exact quiet_bind (moveFileToFolder_keeps fileObjectId folderId) fun _ _ => quiet_done

end Calls

section Listing

theorem listed_mk (item : FolderTreeItem) (children : List FolderTreeItem) :
    FolderTreeItem.listed { item with children := children } = item.id :: listedAll children := rfl

/-- A tree that is built lists what is found going down. -/
theorem listed_of_build {items : List FolderTreeItem} {depth : Nat} {parentId : Option Int}
    {tree : List FolderTreeItem} (h : buildFolderTree items depth parentId = some tree) :
    listedAll tree = descend (·.id) (·.parentId) items depth parentId := by
  induction depth generalizing parentId tree with
  | zero => cases h
  | succ depth ih =>
    rw [buildFolderTree] at h
    rw [descend]
    generalize (items.filter fun item => item.parentId == parentId) = children at h ⊢
    induction children generalizing tree with
    | nil =>
      cases h
      rfl
    | cons item rest ihl =>
      rw [List.mapM_cons] at h
      obtain ⟨node, hnode, h⟩ := Option.bind_eq_some_iff.mp h
      obtain ⟨nodes, hnodes, h⟩ := Option.bind_eq_some_iff.mp h
      obtain ⟨below, hbelow, hnode⟩ := Option.bind_eq_some_iff.mp hnode
      cases h
      cases hnode
      rw [listedAll, List.flatMap_cons, listed_mk, ih hbelow, ihl hnodes]

/-- The recursion ends where parents have smaller ids. -/
theorem build_returns {items : List FolderTreeItem}
    (horder : ∀ x ∈ items, ∀ p, x.parentId = some p → p < x.id) {depth : Nat}
    {parentId : Option Int} (hdepth : above (items.map (·.id)) parentId < depth) :
    ∃ tree, buildFolderTree items depth parentId = some tree := by
  induction depth generalizing parentId with
  | zero => omega
  | succ depth ih =>
    rw [buildFolderTree]
    have hchild : ∀ x ∈ items.filter (fun item => item.parentId == parentId),
        ∃ below, buildFolderTree items depth (some x.id) = some below := by
      intro x hx
      obtain ⟨hmem, hp⟩ := List.mem_filter.mp hx
      have hlt := above_lt (p := parentId) (List.mem_map_of_mem (f := (·.id)) hmem)
        fun q hq => horder x hmem q (by rw [← hq]; simpa using hp)
      exact ih (by omega)
    generalize (items.filter fun item => item.parentId == parentId) = children at hchild ⊢
    induction children with
    | nil => exact ⟨[], rfl⟩
    | cons item rest ihl =>
      obtain ⟨below, hbelow⟩ := hchild item List.mem_cons_self
      obtain ⟨nodes, hnodes⟩ := ihl fun x hx => hchild x (List.mem_cons_of_mem _ hx)
      refine ⟨{ item with children := below } :: nodes, ?_⟩
      rw [List.mapM_cons, hnodes, hbelow]
      rfl

/-- A greater bound does not change the tree. -/
theorem build_succ {items : List FolderTreeItem} {depth : Nat} {parentId : Option Int}
    {tree : List FolderTreeItem} (h : buildFolderTree items depth parentId = some tree) :
    buildFolderTree items (depth + 1) parentId = some tree := by
  induction depth generalizing parentId tree with
  | zero => cases h
  | succ depth ih =>
    rw [buildFolderTree] at h ⊢
    generalize (items.filter fun item => item.parentId == parentId) = children at h ⊢
    induction children generalizing tree with
    | nil => exact h
    | cons item rest ihl =>
      rw [List.mapM_cons] at h ⊢
      obtain ⟨node, hnode, h⟩ := Option.bind_eq_some_iff.mp h
      obtain ⟨nodes, hnodes, h⟩ := Option.bind_eq_some_iff.mp h
      obtain ⟨below, hbelow, hnode⟩ := Option.bind_eq_some_iff.mp hnode
      cases h
      cases hnode
      rw [ih hbelow, ihl hnodes]
      rfl

theorem build_of_le {items : List FolderTreeItem} {depth depth' : Nat} {parentId : Option Int}
    {tree : List FolderTreeItem} (hle : depth ≤ depth')
    (h : buildFolderTree items depth parentId = some tree) :
    buildFolderTree items depth' parentId = some tree := by
  induction depth', hle using Nat.le_induction with
  | base => exact h
  | succ depth' _ ih => exact build_succ ih

variable {db : Db} {projectId : Int}

theorem mem_folderRows {item : FolderTreeItem} (h : item ∈ folderRows db projectId) :
    ∃ f ∈ db.folders, f.projectId = projectId ∧ f.status = .active ∧ f.id = item.id ∧
      f.parentId = item.parentId := by
  obtain ⟨f, hf, rfl⟩ := List.mem_map.mp h
  rw [List.mem_mergeSort, List.mem_filter] at hf
  obtain ⟨hmem, hf⟩ := hf
  simp only [Bool.and_eq_true, beq_iff_eq, Db.isActive] at hf
  exact ⟨f, hmem, hf.1, hf.2, rfl, rfl⟩

theorem folderRows_of_mem {f : FileFolder} (hf : f ∈ db.folders) (hp : f.projectId = projectId)
    (ha : f.status = .active) : ∃ item ∈ folderRows db projectId, item.id = f.id := by
  refine ⟨_, List.mem_map_of_mem (a := f) ?_, rfl⟩
  rw [List.mem_mergeSort, List.mem_filter]
  exact ⟨hf, by simp [Db.isActive, hp, ha]⟩

theorem nodup_folderRows (h : (db.folders.map (·.id)).Nodup) :
    ((folderRows db projectId).map (·.id)).Nodup := by
  unfold folderRows
  rw [List.map_map]
  have hperm := (List.mergeSort_perm
    (db.folders.filter fun f => f.projectId == projectId && Db.isActive f) treeOrder).map
    ((·.id) ∘ fun f : FileFolder =>
      ({ id := f.id, parentId := f.parentId, name := f.name, description := f.description,
         children := [] } : FolderTreeItem))
  rw [hperm.nodup_iff]
  exact h.sublist (List.filter_sublist.map _)

/-- `get_folder_tree` returns, and lists every active folder of the project once and no other. -/
def ListsEveryFolder (db : Db) : Prop :=
  ∀ projectId, 0 < projectId → ∃ tree, (∀ depth, db.folders.length < depth →
      getFolderTree depth db projectId = .ok (some tree)) ∧
    ∀ id, (listedAll tree).count id =
      if (∃ f ∈ db.folders, f.id = id ∧ f.projectId = projectId ∧ f.status = .active) then 1 else 0

theorem listsEveryFolder (h : Inv db) : ListsEveryFolder db := by
  intro projectId hpos
  have hlen : (folderRows db projectId).length ≤ db.folders.length := by
    unfold folderRows
    rw [List.length_map, List.length_mergeSort]
    exact List.length_filter_le _ _
  have hparent : ∀ x ∈ folderRows db projectId, ∀ q, x.parentId = some q →
      q < x.id ∧ ∃ y ∈ folderRows db projectId, y.id = q := by
    intro x hx q hq
    obtain ⟨f, hf, hp, ha, hid, hparent⟩ := mem_folderRows hx
    rw [← hparent] at hq
    obtain ⟨g, hg, hgid, hga, hgp⟩ := h.parents f hf ha q hq
    refine ⟨hid ▸ h.order f hf q hq, ?_⟩
    obtain ⟨y, hy, hyid⟩ := folderRows_of_mem hg (hgp.trans hp) hga
    exact ⟨y, hy, hyid.trans hgid⟩
  have horder : ∀ x ∈ folderRows db projectId, ∀ q, x.parentId = some q → q < x.id :=
    fun x hx q hq => (hparent x hx q hq).1
  have habove : above ((folderRows db projectId).map (·.id)) none < db.folders.length + 1 := by
    have := above_le_length ((folderRows db projectId).map (·.id)) none
    rw [List.length_map] at this
    omega
  obtain ⟨tree, htree⟩ := build_returns horder habove
  have hlisted := listed_of_build htree
  refine ⟨tree, ?_, ?_⟩
  · intro depth hd
    have hreject : rejectIf (projectId ≤ 0) (AppError.badRequest "项目 ID 无效") = .ok () :=
      rejectIf_neg (by omega)
    rw [getFolderTree, hreject, ok_bind, pure_ok, build_of_le hd htree]
  · intro id
    rw [hlisted]
    split
    · rename_i hex
      obtain ⟨f, hf, rfl, hp, ha⟩ := hex
      obtain ⟨item, hitem, hid⟩ := folderRows_of_mem hf hp ha
      rw [← hid]
      apply count_descend_roots (nodup_folderRows h.ids) hparent hitem
      have := rank_le_length ((folderRows db projectId).map (·.id)) item.id
      rw [List.length_map] at this
      omega
    · rename_i hex
      apply List.count_eq_zero_of_not_mem
      intro hmem
      obtain ⟨item, hitem, rfl⟩ := mem_descend hmem
      obtain ⟨f, hf, hp, ha, hid, -⟩ := mem_folderRows hitem
      exact hex ⟨f, hf, hid, hp, ha⟩

end Listing

/-- The tables before the first folder. -/
def emptyDb (projects : List Int) : Db where
  projects := projects
  folders := []
  nextFolder := 1
  objects := []
  nextObject := 1
  attachments := []
  nextAttachment := 1
  activities := []

theorem inv_emptyDb (projects : List Int) : Inv (emptyDb projects) where
  parents := fun _ h => by cases h
  objects := fun _ h => by cases h
  ids := List.nodup_nil
  fresh := fun _ h => by cases h
  order := fun _ h => by cases h

/-- The database and the calls of a run. -/
abbrev Server := Serving Statement Statement.Answer AppError Response Db

/-- In every run whose writes find the checked folder still active, the folders stay a forest, and
`get_folder_tree` lists every active folder of a project once. -/
theorem folder_forest_is_kept (projects : List Int)
    (tr : List (Entry Server (Turn Request Moment) Unit)) (s : Server)
    (hrun : Run (serve perform start) { db := emptyDb projects, calls := [] } tr s)
    (hok : ∀ x ∈ tr, Meets StillActive x.pre x.event) :
    Forest s.db ∧ ListsEveryFolder s.db := by
  have hinv : Inv s.db := by
    refine (serve_invariant (D := forest) (inv_emptyDb projects) ?_ hrun hok).1
    exact fun request d => start_keeps request
  exact ⟨hinv.toForest, listsEveryFolder hinv⟩

def calm : Moment := { now := 0, fault := none }

def folderNamed (name : String) (parentId : Option Int) : Request :=
  .createFolder { parentId := parentId, projectId := 1, name := name, description := none }

/-- A folder and a subfolder are made one after the other. -/
def nestedTurns : List (Turn Request Moment) :=
  [.begin (folderNamed "a" none), .resume 0 calm, .resume 0 calm, .resume 0 calm,
    .begin (folderNamed "b" (some 1)), .resume 1 calm, .resume 1 calm, .resume 1 calm]

theorem nested_folders_are_listed :
    ∃ tr s, exec (serve perform start) ({ db := emptyDb [1], calls := [] } : Server) nestedTurns =
        some (tr, s) ∧ s.db.folders.map (·.id) = [1, 2] ∧ Forest s.db ∧ ListsEveryFolder s.db := by
  obtain ⟨r, hr⟩ : ∃ r, exec (serve perform start) ({ db := emptyDb [1], calls := [] } : Server)
      nestedTurns = some r := ⟨_, rfl⟩
  have hids : (exec (serve perform start) ({ db := emptyDb [1], calls := [] } : Server)
      nestedTurns).map (fun r => r.2.db.folders.map (·.id)) = some [1, 2] := rfl
  rw [hr] at hids
  refine ⟨r.1, r.2, hr, Option.some.inj hids, ?_⟩
  apply folder_forest_is_kept [1] r.1 r.2 (run_of_exec hr)
  intro x hx
  refine checks_exec (C := Meets StillActive) hr ?_ hx
  refine ⟨trivial, meets_resume rfl trivial, meets_resume rfl trivial, meets_resume rfl trivial,
    trivial, meets_resume rfl trivial, meets_resume rfl trivial, meets_resume rfl ?_, trivial⟩
  exact ⟨_, List.mem_cons_self, rfl, rfl⟩

/-- The parent is deleted between the check and the insert. -/
def overtakenTurns : List (Turn Request Moment) :=
  [.begin (folderNamed "a" none), .resume 0 calm, .resume 0 calm, .resume 0 calm,
    .begin (folderNamed "b" (some 1)), .resume 1 calm, .resume 1 calm,
    .begin (.deleteFolder 1), .resume 2 calm, .resume 2 calm, .resume 1 calm]

def overtakenDb : Db :=
  { emptyDb [1] with
    folders := [
      { id := 1, parentId := none, projectId := 1, name := "a", description := "",
        status := .deleted, createdAt := 0 },
      { id := 2, parentId := some 1, projectId := 1, name := "b", description := "",
        status := .active, createdAt := 0 }]
    nextFolder := 3 }

theorem create_folder_under_deleted_parent :
    ∃ tr s, Run (serve perform start) ({ db := emptyDb [1], calls := [] } : Server) tr s ∧
      ¬Forest s.db ∧ ¬ListsEveryFolder s.db := by
  obtain ⟨r, hr⟩ : ∃ r, exec (serve perform start) ({ db := emptyDb [1], calls := [] } : Server)
      overtakenTurns = some r := ⟨_, rfl⟩
  have hdb : (exec (serve perform start) ({ db := emptyDb [1], calls := [] } : Server)
      overtakenTurns).map (fun r => r.2.db) = some overtakenDb := rfl
  rw [hr] at hdb
  have hdb : r.2.db = overtakenDb := Option.some.inj hdb
  refine ⟨r.1, r.2, run_of_exec hr, ?_, ?_⟩
  · rw [hdb]
    intro h
    obtain ⟨g, hg, hid, ha, -⟩ := h.parents _ (List.mem_cons_of_mem _ List.mem_cons_self) rfl 1 rfl
    simp only [overtakenDb, List.mem_cons, List.not_mem_nil, or_false] at hg
    rcases hg with rfl | rfl
    · cases ha
    · cases hid
  · rw [hdb]
    intro h
    obtain ⟨tree, htree, hcount⟩ := h 1 (by decide)
    have hempty : getFolderTree 3 overtakenDb 1 = .ok (some []) := by
      simp [getFolderTree, folderRows, overtakenDb, Db.isActive, rejectIf, buildFolderTree, bind,
        Except.bind, pure, Except.pure]
    have heq := (htree 3 (by decide)).symm.trans hempty
    cases heq
    have hone := hcount 2
    rw [if_pos ⟨_, List.mem_cons_of_mem _ List.mem_cons_self, rfl, rfl, rfl⟩] at hone
    cases hone

end Files
end Yuance
