import Yuance.Files.Validation
import Yuance.Lib.Calls
import Yuance.Lib.Table

/-!
# Yuance.Files.Folders

The project folders of `api/src/domains/files.rs`: `create_folder`, `update_folder`, `delete_folder`,
`create_attachment`, `move_file_to_folder` and `get_folder_tree`. A call is the sequence of its
statements; the transactions of `delete_folder` and `create_attachment` are one statement each. A
statement may fail for a reason of its own, which leaves the tables alone.
-/

namespace Yuance
namespace Files

open Lib Platform

inductive FolderStatus where
  | active
  | deleted
  deriving DecidableEq, Repr

/-- A row of `file_folders`. -/
structure FileFolder where
  id : Int
  parentId : Option Int
  projectId : Int
  name : String
  description : String
  status : FolderStatus
  createdAt : Int
  deriving DecidableEq, Repr

structure FileAttachment where
  id : Int
  fileObjectId : Int
  targetType : TargetType
  targetId : Int
  deriving DecidableEq, Repr

structure ProjectActivity where
  projectId : Int
  targetType : TargetType
  targetId : Int
  summary : String
  deriving DecidableEq, Repr

/-- The tables, with the next `AUTOINCREMENT` id of each. -/
structure Db where
  projects : List Int
  folders : List FileFolder
  nextFolder : Int
  objects : List FileObject
  nextObject : Int
  attachments : List FileAttachment
  nextAttachment : Int
  activities : List ProjectActivity

namespace Db

variable (db : Db)

def isActive (f : FileFolder) : Bool := f.status == .active

/-- `SELECT .. WHERE ff.id = ?1 AND ff.status = 'active'`. -/
def selectFolder (id : Int) : Option FileFolder :=
  db.folders.find? fun f => f.id == id && isActive f

/-- The rows that `idx_file_folders_unique_name` holds against a name. -/
def clashes (projectId : Int) (parentId : Option Int) (name : String) (excludeId : Option Int) :
    List FileFolder :=
  db.folders.filter fun f =>
    f.projectId == projectId && f.parentId.getD 0 == parentId.getD 0 && f.name == name && isActive f
      && excludeId != some f.id

def hasFolder (id : Int) : Bool := db.folders.any fun f => f.id == id

/-- A reference to a row that need not be set. -/
def refers (row : Int → Bool) : Option Int → Bool
  | none => true
  | some id => row id

def insertFolder (parentId : Option Int) (projectId : Int) (name description : String) (now : Int) :
    Db × Except AppError Int :=
  if !refers db.hasFolder parentId || !db.projects.contains projectId
      || !(db.clashes projectId parentId name none).isEmpty then
    (db, .error .storage)
  else
    ({ db with
        folders := db.folders ++ [
          { id := db.nextFolder, parentId, projectId, name, description, status := .active,
            createdAt := now }]
        nextFolder := db.nextFolder + 1 }, .ok db.nextFolder)

def renameFolder (id : Int) (name : String) : Db × Except AppError Unit :=
  if (db.folders.any fun f => f.id == id && isActive f
      && !(db.clashes f.projectId f.parentId name (some id)).isEmpty) then
    (db, .error .storage)
  else
    ({ db with folders := updateWhere (·.id == id) ({ · with name := name }) db.folders }, .ok ())

def describeFolder (id : Int) (description : String) : Db :=
  { db with
    folders := updateWhere (·.id == id) ({ · with description := description }) db.folders }

/-- The active children of the folders `ids`. -/
def activeChildren (ids : List Int) : List Int :=
  (db.folders.filter fun f => isActive f && (f.parentId.any fun p => ids.contains p)).map (·.id)

/-- `WITH RECURSIVE folder_tree(id)`, level by level. -/
def folderTreeFrom : Nat → List Int → List Int
  | 0, _ => []
  | n + 1, ids => ids ++ folderTreeFrom n (db.activeChildren ids)

def folderTree (id : Int) : List Int :=
  db.folderTreeFrom db.folders.length
    ((db.folders.filter fun f => f.id == id && isActive f).map (·.id))

/-- The transaction of `delete_folder`. -/
def deleteFolderTree (id : Int) : Db :=
  { db with
    objects := updateWhere (fun o => o.folderId.any fun f => (db.folderTree id).contains f)
      ({ · with folderId := none }) db.objects
    folders := updateWhere (fun f => (db.folderTree id).contains f.id)
      ({ · with status := .deleted }) db.folders }

structure AttachmentRow where
  folderId : Option Int
  originalFilename : String
  contentType : String
  byteSize : Int
  checksumSha256 : String
  targetType : TargetType
  targetId : Int
  /-- The project and the summary of the activity that is recorded with it. -/
  activity : Option (Int × String)

/-- The transaction of `create_attachment`. -/
def insertAttachment (row : AttachmentRow) : Db × Except AppError Int :=
  if !refers db.hasFolder row.folderId
      || !(row.activity.all fun a => db.projects.contains a.1) then
    (db, .error .storage)
  else
    ({ db with
        objects := db.objects ++ [
          { id := db.nextObject, folderId := row.folderId,
            originalFilename := row.originalFilename, contentType := row.contentType,
            byteSize := row.byteSize, checksumSha256 := row.checksumSha256, status := .pending }]
        nextObject := db.nextObject + 1
        attachments := db.attachments ++ [
          { id := db.nextAttachment, fileObjectId := db.nextObject, targetType := row.targetType,
            targetId := row.targetId }]
        nextAttachment := db.nextAttachment + 1
        activities := db.activities ++ (row.activity.map fun a =>
          { projectId := a.1, targetType := row.targetType, targetId := row.targetId,
            summary := a.2 }).toList }, .ok db.nextAttachment)

def setFileFolder (fileObjectId : Int) (folderId : Option Int) : Db × Except AppError Unit :=
  if !refers db.hasFolder folderId && db.objects.any (fun o => o.id == fileObjectId) then
    (db, .error .storage)
  else
    ({ db with
        objects := updateWhere (·.id == fileObjectId) ({ · with folderId := folderId }) db.objects },
      .ok ())

def selectObject (id : Int) : Option FileObject := db.objects.find? (·.id == id)

def selectAttachment (id : Int) : Option (FileAttachment × FileObject) :=
  (db.attachments.find? (·.id == id)).bind fun a =>
    (db.selectObject a.fileObjectId).map fun o => (a, o)

end Db

/-! ## Statements -/

inductive Statement where
  | selectFolder (id : Int)
  | countFolders (projectId : Int) (parentId : Option Int) (name : String) (excludeId : Option Int)
  | insertFolder (parentId : Option Int) (projectId : Int) (name description : String)
  | renameFolder (id : Int) (name : String)
  | describeFolder (id : Int) (description : String)
  | deleteFolderTree (id : Int)
  | insertAttachment (row : Db.AttachmentRow)
  | setFileFolder (fileObjectId : Int) (folderId : Option Int)
  | selectObject (id : Int)
  | selectAttachment (id : Int)

abbrev Statement.Answer : Statement → Type
  | selectFolder _ => Option FileFolder
  | countFolders .. => Nat
  | insertFolder .. => Int
  | renameFolder .. => Unit
  | describeFolder .. => Unit
  | deleteFolderTree _ => Unit
  | insertAttachment _ => Int
  | setFileFolder .. => Unit
  | selectObject _ => Option FileObject
  | selectAttachment _ => Option (FileAttachment × FileObject)

/-- The time of a statement, and the error it fails with if it fails. -/
structure Moment where
  now : Int
  fault : Option AppError

def execute (now : Int) (db : Db) : (s : Statement) → Db × Except AppError s.Answer
  | .selectFolder id => (db, .ok (db.selectFolder id))
  | .countFolders projectId parentId name excludeId =>
    (db, .ok (db.clashes projectId parentId name excludeId).length)
  | .insertFolder parentId projectId name description =>
    db.insertFolder parentId projectId name description now
  | .renameFolder id name => db.renameFolder id name
  | .describeFolder id description => (db.describeFolder id description, .ok ())
  | .deleteFolderTree id => (db.deleteFolderTree id, .ok ())
  | .insertAttachment row => db.insertAttachment row
  | .setFileFolder fileObjectId folderId => db.setFileFolder fileObjectId folderId
  | .selectObject id => (db, .ok (db.selectObject id))
  | .selectAttachment id => (db, .ok (db.selectAttachment id))

def perform (m : Moment) (s : Statement) (db : Db) : Db × Except AppError s.Answer :=
  match m.fault with
  | some e => (db, .error e)
  | none => execute m.now db s

/-! ## Calls -/

abbrev Task (α : Type) := Call Statement Statement.Answer AppError α

def query (s : Statement) : Task s.Answer := Call.make s

def getFolderOptional (id : Int) : Task (Option FileFolder) := do
  Call.rejectIf (id ≤ 0) (.badRequest "文件夹 ID 无效")
  query (.selectFolder id)

def getFolder (id : Int) : Task FileFolder := do
  let folder ← getFolderOptional id
  Call.okOr folder (.notFound "文件夹不存在")

def ensureFolderNameAvailable (projectId : Int) (parentId : Option Int) (name : String)
    (excludeId : Option Int) : Task Unit := do
  let existingCount ← query (.countFolders projectId parentId name excludeId)
  Call.rejectIf (existingCount > 0) (.conflict "同级文件夹名称已存在")

structure CreateFolderInput where
  parentId : Option Int
  projectId : Int
  name : String
  description : Option String

def ensureParent (input : CreateFolderInput) : Task Unit :=
  match input.parentId with
  | none => pure ()
  | some parentId => do
    Call.rejectIf (parentId ≤ 0) (.badRequest "父文件夹 ID 无效")
    let parentFolder ← getFolder parentId
    Call.rejectIf (parentFolder.projectId ≠ input.projectId) (.badRequest "父文件夹不属于当前项目")

def createFolder (input : CreateFolderInput) : Task FileFolder := do
  let name ← Call.ofExcept (validateFolderName input.name)
  let description := trim (input.description.getD "")
  ensureParent input
  ensureFolderNameAvailable input.projectId input.parentId name none
  let id ← query (.insertFolder input.parentId input.projectId name description)
  getFolder id

structure UpdateFolderInput where
  name : Option String
  description : Option String

def updateName (folder : FileFolder) (id : Int) : Option String → Task Unit
  | none => pure ()
  | some name => do
    let name ← Call.ofExcept (validateFolderName name)
    ensureFolderNameAvailable folder.projectId folder.parentId name (some id)
    query (.renameFolder id name)

def updateDescription (id : Int) : Option String → Task Unit
  | none => pure ()
  | some description => query (.describeFolder id (trim description))

def updateFolder (id : Int) (input : UpdateFolderInput) : Task FileFolder := do
  let folder ← getFolder id
  updateName folder id input.name
  updateDescription id input.description
  getFolder id

def deleteFolder (id : Int) : Task FileFolder := do
  let folder ← getFolder id
  query (.deleteFolderTree id)
  pure folder

structure CreateAttachmentInput where
  targetType : String
  targetId : Int
  projectId : Option Int
  folderId : Option Int
  originalFilename : String
  contentType : String
  byteSize : Int
  activitySummary : Option String

def ensureAttachmentFolder (input : CreateAttachmentInput) : Task Unit :=
  match input.folderId with
  | none => pure ()
  | some folderId => do
    let folder ← getFolder folderId
    let projectId ← Call.okOr input.projectId (.badRequest "文件夹附件必须关联项目")
    Call.rejectIf (folder.projectId ≠ projectId) (.badRequest "目标文件夹不属于当前项目")

def validateSummary : Option String → Except AppError (Option String)
  | none => .ok none
  | some summary => (validateActivitySummary summary).map some

/-- The checks of `create_attachment` before its first statement. -/
def attachmentRow (input : CreateAttachmentInput) (checksumSha256 : String) :
    Except AppError Db.AttachmentRow := do
  let targetType ← validateTargetType input.targetType
  rejectIf (input.targetId ≤ 0) (.badRequest "附件目标无效")
  rejectIf (input.projectId.any (· ≤ 0)) (.badRequest "项目动态目标无效")
  let originalFilename ← validateFilename input.originalFilename
  let contentType ← validateContentType input.contentType
  let activitySummary ← validateSummary input.activitySummary
  validateByteSize input.byteSize
  let checksumSha256 ← validateChecksumSha256 checksumSha256
  pure
    { folderId := input.folderId, originalFilename, contentType, byteSize := input.byteSize,
      checksumSha256, targetType, targetId := input.targetId,
      activity := input.projectId.bind fun p => activitySummary.map fun s => (p, s) }

def createAttachment (input : CreateAttachmentInput) (checksumSha256 : String) :
    Task (FileAttachment × FileObject) := do
  let row ← Call.ofExcept (attachmentRow input checksumSha256)
  ensureAttachmentFolder input
  let id ← query (.insertAttachment row)
  Call.rejectIf (id ≤ 0) (.badRequest "附件 ID 无效")
  let attachment ← query (.selectAttachment id)
  Call.okOr attachment (.notFound "附件不存在")

def ensureTargetFolder : Option Int → Task Unit
  | none => pure ()
  | some folderId => do
    Call.rejectIf (folderId ≤ 0) (.badRequest "文件夹 ID 无效")
    let _ ← getFolder folderId

def moveFileToFolder (fileObjectId : Int) (folderId : Option Int) : Task FileObject := do
  Call.rejectIf (fileObjectId ≤ 0) (.badRequest "文件对象 ID 无效")
  ensureTargetFolder folderId
  query (.setFileFolder fileObjectId folderId)
  let object ← query (.selectObject fileObjectId)
  Call.okOr object .storage

inductive Request where
  | createFolder (input : CreateFolderInput)
  | updateFolder (id : Int) (input : UpdateFolderInput)
  | deleteFolder (id : Int)
  | createAttachment (input : CreateAttachmentInput) (checksumSha256 : String)
  | moveFileToFolder (fileObjectId : Int) (folderId : Option Int)

inductive Response where
  | folder (folder : FileFolder)
  | attachment (attachment : FileAttachment) (object : FileObject)
  | object (object : FileObject)

def start : Request → Task Response
  | .createFolder input => do
    let folder ← createFolder input
    pure (.folder folder)
  | .updateFolder id input => do
    let folder ← updateFolder id input
    pure (.folder folder)
  | .deleteFolder id => do
    let folder ← deleteFolder id
    pure (.folder folder)
  | .createAttachment input checksumSha256 => do
    let attachment ← createAttachment input checksumSha256
    pure (.attachment attachment.1 attachment.2)
  | .moveFileToFolder fileObjectId folderId => do
    let object ← moveFileToFolder fileObjectId folderId
    pure (.object object)

/-! ## The folder tree -/

structure FolderTreeItem where
  id : Int
  parentId : Option Int
  name : String
  description : String
  children : List FolderTreeItem

/-- `ORDER BY ff.parent_id NULLS FIRST, ff.created_at ASC, ff.id ASC`. -/
def treeOrder (f g : FileFolder) : Bool :=
  match f.parentId, g.parentId with
  | none, some _ => true
  | some _, none => false
  | p, q =>
    if p.getD 0 = q.getD 0 then
      if f.createdAt = g.createdAt then f.id ≤ g.id else f.createdAt ≤ g.createdAt
    else p.getD 0 ≤ q.getD 0

def folderRows (db : Db) (projectId : Int) : List FolderTreeItem :=
  ((db.folders.filter fun f => f.projectId == projectId && Db.isActive f).mergeSort treeOrder).map
    fun f => { id := f.id, parentId := f.parentId, name := f.name, description := f.description,
               children := [] }

/-- `build_folder_tree`, with a bound on the depth of its recursion. -/
def buildFolderTree (items : List FolderTreeItem) : Nat → Option Int → Option (List FolderTreeItem)
  | 0, _ => none
  | depth + 1, parentId =>
    (items.filter fun item => item.parentId == parentId).mapM fun item => do
      let children ← buildFolderTree items depth (some item.id)
      pure { item with children := children }

def getFolderTree (depth : Nat) (db : Db) (projectId : Int) :
    Except AppError (Option (List FolderTreeItem)) := do
  rejectIf (projectId ≤ 0) (.badRequest "项目 ID 无效")
  pure (buildFolderTree (folderRows db projectId) depth none)

mutual
/-- The folders that a tree lists, as often as it lists them. -/
def FolderTreeItem.listed : FolderTreeItem → List Int
  | ⟨id, _, _, _, children⟩ => id :: listedAll children
def listedAll : List FolderTreeItem → List Int
  | [] => []
  | item :: items => item.listed ++ listedAll items
end

end Files
end Yuance
