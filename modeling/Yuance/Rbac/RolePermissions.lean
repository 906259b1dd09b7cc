import Yuance.Lib.Table
import Yuance.Lib.Text
import Yuance.Lib.Transactions
import Yuance.Platform.Crypto

/-!
# Yuance.Rbac.RolePermissions

The permissions of a role in `api/src/domains/rbac.rs`. `replace_role_permissions` trims the keys of
the request, adds the pages of the actions among them and grants what it has; but it looks the
actions up by the keys as they came. The names of roles and permissions, and times, are left out.

* `replaceRolePermissions`: the call, with its checks and its transaction.
* `ClosedUnderPages`, `Requested`: what the granted permissions should be the least set of.
* `replaceRolePermissions_concludes`: what is granted, and that an error changes nothing.
* `role_permissions_are_least`: it is the least set exactly if each padded key finds the pages of
  its action elsewhere in the request.
-/

namespace Yuance
namespace Rbac

open Lib Platform

/-- A row of `permissions`. -/
structure Permission where
  id : Int
  permissionKey : String
  resourceType : String
  resourceKey : String
  deriving DecidableEq, Repr

/-- A row of `roles`. -/
structure Role where
  id : Int
  roleCode : String
  isSystem : Bool
  deriving DecidableEq, Repr

/-- The tables, with the keys that they declare unique. -/
structure Db where
  permissions : List Permission
  roles : List Role
  /-- The rows of `role_permissions`: the ids of a role and of a permission. -/
  rolePermissions : List (Int × Int)
  permissionIds : (permissions.map (·.id)).Nodup
  permissionKeys : (permissions.map (·.permissionKey)).Nodup
  roleCodes : (roles.map (·.roleCode)).Nodup

/-! ## Statements -/

namespace Db

variable (db : Db)

def role (roleCode : String) : Option Role := db.roles.find? (·.roleCode == roleCode)

def isSystemRole (roleCode : String) : Bool := (db.role roleCode).any (·.isSystem)

def roleExists (roleCode : String) : Bool := db.roles.any (·.roleCode == roleCode)

def permission (permissionKey : String) : Option Permission :=
  db.permissions.find? (·.permissionKey == permissionKey)

/-- `ORDER BY permission_key ASC`, and `sort`. -/
def sorted (keys : List String) : List String := keys.mergeSort fun a b => decide (¬ b < a)

def pagePermissionKeys (resourceKey : String) : List String :=
  sorted ((db.permissions.filter fun p =>
    p.resourceType == "page" && p.resourceKey == resourceKey).map (·.permissionKey))

def withGrants (rolePermissions : List (Int × Int)) : Db := { db with rolePermissions }

/-- `DELETE FROM role_permissions WHERE role_id = (SELECT id FROM roles WHERE role_code = ?1)`. -/
def deleteGrants (roleCode : String) : Db :=
  db.withGrants (db.rolePermissions.filter fun g => !(db.role roleCode).any fun r => r.id == g.1)

/-- The rows that the `INSERT` selects. -/
def grantRows (roleCode permissionKey : String) : List (Int × Int) :=
  (db.roles.filter (·.roleCode == roleCode)).flatMap fun r =>
    (db.permissions.filter (·.permissionKey == permissionKey)).map fun p => (r.id, p.id)

/-- `INSERT INTO role_permissions .. ON CONFLICT DO NOTHING`. -/
def insertGrant (roleCode permissionKey : String) : Db :=
  db.withGrants (db.rolePermissions ++
    (db.grantRows roleCode permissionKey).filter fun g => !db.rolePermissions.contains g)

end Db

/-! ## The call -/

abbrev Task (α : Type) := Tx Db AppError α

/-- The first loop of `normalize_permission_keys`. -/
def trimKeys (normalized : List String) : List String → List String
  | [] => normalized
  | permissionKey :: rest =>
    if trim permissionKey = "" ∨ normalized.contains (trim permissionKey) then
      trimKeys normalized rest
    else trimKeys (normalized ++ [trim permissionKey]) rest

def pushPages (normalized : List String) : List String → List String
  | [] => normalized
  | page :: rest =>
    if normalized.contains page then pushPages normalized rest
    else pushPages (normalized ++ [page]) rest

/-- The second loop. -/
def addPages (normalized : List String) : List String → Task (List String)
  | [] => pure normalized
  | permissionKey :: rest => do
    let found ← Tx.select .storage fun db => db.permission permissionKey
    match found with
    | none => addPages normalized rest
    | some p =>
      if p.resourceType ≠ "action" then addPages normalized rest
      else do
        let pages ← Tx.select .storage fun db => db.pagePermissionKeys p.resourceKey
        addPages (pushPages normalized pages) rest

def normalizePermissionKeys (permissionKeys : List String) : Task (List String) := do
  let normalized ← addPages (trimKeys [] permissionKeys) permissionKeys
  pure (Db.sorted normalized)

/-- Each permission exists. -/
def checkKeys : List String → Task Unit
  | [] => pure ()
  | permissionKey :: rest => do
    let found ← Tx.select .storage fun db => db.permission permissionKey
    Tx.rejectIf (found.isNone = true) (.badRequest ("权限点不存在：" ++ permissionKey))
    checkKeys rest

def insertGrants (roleCode : String) : List String → Task Unit
  | [] => pure ()
  | permissionKey :: rest => do
    Tx.execute .storage fun db => db.insertGrant roleCode permissionKey
    insertGrants roleCode rest

def commits {α : Type} : Except AppError α → Bool
  | .ok _ => true
  | .error _ => false

def replaceRolePermissions (roleCode : String) (permissionKeys : List String) : Task Unit := do
  let isSystem ← Tx.select .storage fun db => db.isSystemRole roleCode
  Tx.rejectIf (isSystem = true) (.badRequest "系统内置角色权限不允许在页面修改")
  let exists? ← Tx.select .storage fun db => db.roleExists roleCode
  Tx.rejectIf (exists? = false) (.badRequest "角色不存在")
  let permissionKeys ← normalizePermissionKeys permissionKeys
  Tx.atomically .storage commits do
    checkKeys permissionKeys
    Tx.execute .storage fun db => db.deleteGrants roleCode
    insertGrants roleCode permissionKeys

/-! ## What is granted -/

/-- The permissions of the role. -/
def Db.granted (db : Db) (roleCode : String) : Set String :=
  {key | ∃ r ∈ db.roles, r.roleCode = roleCode ∧
    ∃ p ∈ db.permissions, p.permissionKey = key ∧ (r.id, p.id) ∈ db.rolePermissions}

/-- What the request names: its keys without the white space around them, but for the blank ones. -/
def Requested (keys : List String) : Set String := {key | key ≠ "" ∧ ∃ raw ∈ keys, trim raw = key}

/-- `page` is a page of the resource that the action `action` is for. -/
def Db.PageOf (db : Db) (action page : String) : Prop :=
  ∃ a ∈ db.permissions, a.permissionKey = action ∧ a.resourceType = "action" ∧
    ∃ p ∈ db.permissions, p.permissionKey = page ∧ p.resourceType = "page" ∧
      p.resourceKey = a.resourceKey

/-- With an action, all pages of its resource. -/
def ClosedUnderPages (db : Db) (keys : Set String) : Prop :=
  ∀ action ∈ keys, ∀ page, db.PageOf action page → page ∈ keys

/-- What the request should grant. -/
def Least (db : Db) (keys : List String) (granted : Set String) : Prop :=
  IsLeast {s : Set String | Requested keys ⊆ s ∧ ClosedUnderPages db s} granted

/-- What the call grants. -/
def Collected (db : Db) (keys : List String) : Set String :=
  {key | key ∈ Requested keys ∨ ∃ raw ∈ keys, db.PageOf raw key}

/-- The role is there and not of the system, and so are the permissions that are to be granted. -/
structure Grantable (db : Db) (roleCode : String) (keys : List String) : Prop where
  custom : db.isSystemRole roleCode = false
  role : db.roleExists roleCode = true
  found : ∀ key ∈ Collected db keys, ∃ p ∈ db.permissions, p.permissionKey = key

/-- The permissions are the same but for the grants. -/
structure SameTables (db db' : Db) : Prop where
  permissions : db'.permissions = db.permissions
  roles : db'.roles = db.roles

section Pure

variable {db : Db} {keys normalized : List String} {key : String}

theorem mem_trimKeys :
    key ∈ trimKeys normalized keys ↔ key ∈ normalized ∨ key ∈ Requested keys := by
  induction keys generalizing normalized with
  | nil => simp [trimKeys, Requested]
  | cons raw rest ih =>
    have hcons : key ∈ Requested (raw :: rest) ↔
        (key ≠ "" ∧ trim raw = key) ∨ key ∈ Requested rest := by
      unfold Requested
      simp only [Set.mem_ofPred_eq, List.mem_cons]
      constructor
      · rintro ⟨hne, raw', rfl | hraw, htrim⟩
        · exact .inl ⟨hne, htrim⟩
        · exact .inr ⟨hne, raw', hraw, htrim⟩
      · rintro (⟨hne, htrim⟩ | ⟨hne, raw', hraw, htrim⟩)
        · exact ⟨hne, raw, .inl rfl, htrim⟩
        · exact ⟨hne, raw', .inr hraw, htrim⟩
    unfold trimKeys
    split
    · rename_i hskip
      rw [ih, hcons]
      constructor
      · rintro (h | h)
        · exact .inl h
        · exact .inr (.inr h)
      · rintro (h | ⟨hne, rfl⟩ | h)
        · exact .inl h
        · rcases hskip with hblank | hmem
          · exact absurd hblank hne
          · exact .inl (List.contains_iff_mem.mp hmem)
        · exact .inr h
    · rename_i hkeep
      rw [ih, hcons, List.mem_append, List.mem_singleton]
      constructor
      · rintro ((h | rfl) | h)
        · exact .inl h
        · exact .inr (.inl ⟨fun hblank => hkeep (.inl hblank), rfl⟩)
        · exact .inr (.inr h)
      · rintro (h | ⟨_, rfl⟩ | h)
        · exact .inl (.inl h)
        · exact .inl (.inr rfl)
        · exact .inr h

theorem mem_pushPages {pages : List String} :
    key ∈ pushPages normalized pages ↔ key ∈ normalized ∨ key ∈ pages := by
  induction pages generalizing normalized with
  | nil => simp [pushPages]
  | cons page rest ih =>
    unfold pushPages
    split
    · rename_i hmem
      rw [ih, List.mem_cons]
      constructor
      · rintro (h | h)
        · exact .inl h
        · exact .inr (.inr h)
      · rintro (h | rfl | h)
        · exact .inl h
        · exact .inl (List.contains_iff_mem.mp hmem)
        · exact .inr h
    · rw [ih, List.mem_append, List.mem_singleton, List.mem_cons]
      tauto

theorem mem_sorted : key ∈ Db.sorted keys ↔ key ∈ keys := List.mem_mergeSort

theorem permission_of_mem {p : Permission} (hp : p ∈ db.permissions) :
    db.permission p.permissionKey = some p := find?_of_mem db.permissionKeys hp

theorem permission_eq_some {p : Permission} (h : db.permission key = some p) :
    p ∈ db.permissions ∧ p.permissionKey = key :=
  ⟨List.mem_of_find?_eq_some h, by simpa using List.find?_some h⟩

/-- The permission with a key is an action, and the page belongs to its resource. -/
theorem pageOf_iff {p : Permission} {page : String} (h : db.permission key = some p) :
    db.PageOf key page ↔
      p.resourceType = "action" ∧ page ∈ db.pagePermissionKeys p.resourceKey := by
  obtain ⟨hp, hkey⟩ := permission_eq_some h
  have hpages : page ∈ db.pagePermissionKeys p.resourceKey ↔ ∃ q ∈ db.permissions,
      q.permissionKey = page ∧ q.resourceType = "page" ∧ q.resourceKey = p.resourceKey := by
    unfold Db.pagePermissionKeys
    rw [mem_sorted, List.mem_map]
    simp only [List.mem_filter, Bool.and_eq_true, beq_iff_eq]
    constructor
    · rintro ⟨q, ⟨hq, htype, hresource⟩, hname⟩
      exact ⟨q, hq, hname, htype, hresource⟩
    · rintro ⟨q, hq, hname, htype, hresource⟩
      exact ⟨q, ⟨hq, htype, hresource⟩, hname⟩
  rw [hpages]
  constructor
  · rintro ⟨a, ha, hname, htype, hq⟩
    obtain rfl := eq_of_key db.permissionKeys ha hp (hname.trans hkey.symm)
    exact ⟨htype, hq⟩
  · rintro ⟨htype, hq⟩
    exact ⟨p, hp, hkey, htype, hq⟩

theorem not_pageOf {page : String} (h : db.permission key = none) : ¬ db.PageOf key page := by
  rintro ⟨a, ha, rfl, _⟩
  rw [permission_of_mem ha] at h
  cases h

end Pure

/-! ## What the call does -/

section Call

variable {db : Db} {keys normalized : List String} {roleCode : String}

/-- The collected keys, behind the second loop. -/
theorem addPages_concludes {Q : Db → List String → Prop} {E : Db → AppError → Prop}
    (hE : E db .storage)
    (hQ : ∀ l, (∀ key, key ∈ l ↔ key ∈ normalized ∨ ∃ raw ∈ keys, db.PageOf raw key) → Q db l) :
    Concludes (addPages normalized keys) db Q E := by
  induction keys generalizing normalized with
  | nil =>
    refine .done (hQ normalized fun key => ?_)
    simp
  | cons raw rest ih =>
    unfold addPages
    refine .select_bind hE ?_
    split
    · rename_i hnone
      refine ih fun l hl => hQ l fun key => ?_
      rw [hl]
      simp [not_pageOf hnone]
    · rename_i p hp
      split
      · rename_i htype
        refine ih fun l hl => hQ l fun key => ?_
        rw [hl]
        simp [pageOf_iff hp, htype]
      · rename_i htype
        rw [not_not] at htype
        refine .select_bind hE (ih fun l hl => hQ l fun key => ?_)
        rw [hl, mem_pushPages]
        simp [pageOf_iff hp, htype, or_assoc]

theorem normalize_concludes {Q : Db → List String → Prop} {E : Db → AppError → Prop}
    (hE : E db .storage) (hQ : ∀ l, (∀ key, key ∈ l ↔ key ∈ Collected db keys) → Q db l) :
    Concludes (normalizePermissionKeys keys) db Q E := by
  unfold normalizePermissionKeys
  refine .bind (Q := fun d l => d = db ∧ ∀ key, key ∈ l ↔ key ∈ Collected db keys)
    (addPages_concludes hE fun l hl => ⟨rfl, fun key => ?_⟩) ?_
  · rw [hl, mem_trimKeys]
    simp [Collected]
  · rintro d l ⟨rfl, hl⟩
    refine .done (hQ _ fun key => ?_)
    rw [mem_sorted, hl]

theorem checkKeys_concludes {E : Db → AppError → Prop} (hE : ∀ e, E db e) :
    Concludes (checkKeys keys) db
      (fun d _ => d = db ∧ ∀ key ∈ keys, ∃ p ∈ db.permissions, p.permissionKey = key) E := by
  induction keys with
  | nil => exact .done ⟨rfl, by simp⟩
  | cons key rest ih =>
    unfold checkKeys
    refine .select_bind (hE _) (.rejectIf_bind (fun _ => hE _) fun hsome => ?_)
    refine ih.mono ?_ fun _ _ h => h
    rintro d _ ⟨rfl, hrest⟩
    refine ⟨rfl, fun key' hkey' => ?_⟩
    rcases List.mem_cons.mp hkey' with rfl | hmem
    · cases hp : d.permission key' with
      | none => exact absurd (by rw [hp]; rfl) hsome
      | some p => exact ⟨p, permission_eq_some hp⟩
    · exact hrest key' hmem

theorem mem_grantRows {g : Int × Int} {key : String} :
    g ∈ db.grantRows roleCode key ↔ ∃ r ∈ db.roles, r.roleCode = roleCode ∧
      ∃ p ∈ db.permissions, p.permissionKey = key ∧ g = (r.id, p.id) := by
  unfold Db.grantRows
  simp only [List.mem_flatMap, List.mem_filter, List.mem_map, beq_iff_eq]
  constructor
  · rintro ⟨r, ⟨hr, hcode⟩, p, ⟨hp, hkey⟩, rfl⟩
    exact ⟨r, hr, hcode, p, hp, hkey, rfl⟩
  · rintro ⟨r, hr, hcode, p, hp, hkey, rfl⟩
    exact ⟨r, ⟨hr, hcode⟩, p, ⟨hp, hkey⟩, rfl⟩

/-- One permission more. -/
theorem granted_insertGrant {key : String} :
    (db.insertGrant roleCode key).granted roleCode =
      {k | k ∈ db.granted roleCode ∨
        (k = key ∧ db.roleExists roleCode = true ∧
          ∃ p ∈ db.permissions, p.permissionKey = key)} := by
  have hexists : db.roleExists roleCode = true ↔ ∃ r ∈ db.roles, r.roleCode = roleCode := by
    unfold Db.roleExists
    simp only [List.any_eq_true, beq_iff_eq]
  ext k
  unfold Db.granted Db.insertGrant Db.withGrants
  simp only [Set.mem_ofPred_eq, List.mem_append, List.mem_filter, mem_grantRows, hexists]
  constructor
  · rintro ⟨r, hr, hcode, p, hp, hkey, hmem | ⟨⟨r', hr', hcode', p', hp', hkey', heq⟩, _⟩⟩
    · exact .inl ⟨r, hr, hcode, p, hp, hkey, hmem⟩
    · obtain rfl := eq_of_key db.permissionIds hp hp' (Prod.mk.inj heq).2
      exact .inr ⟨hkey.symm.trans hkey', ⟨r, hr, hcode⟩, p, hp, hkey'⟩
  · rintro (⟨r, hr, hcode, p, hp, hkey, hmem⟩ | ⟨rfl, ⟨r, hr, hcode⟩, p, hp, hkey⟩)
    · exact ⟨r, hr, hcode, p, hp, hkey, .inl hmem⟩
    · refine ⟨r, hr, hcode, p, hp, hkey, ?_⟩
      by_cases hmem : (r.id, p.id) ∈ db.rolePermissions
      · exact .inl hmem
      · exact .inr ⟨⟨r, hr, hcode, p, hp, hkey, rfl⟩, by simpa using hmem⟩

theorem granted_deleteGrants : (db.deleteGrants roleCode).granted roleCode = ∅ := by
  ext k
  unfold Db.granted Db.deleteGrants Db.withGrants
  simp only [Set.mem_ofPred_eq, List.mem_filter, Set.mem_empty_iff_false, iff_false]
  rintro ⟨r, hr, hcode, p, _, _, _, hkept⟩
  have hrole : db.role roleCode = some r := by
    rw [← hcode]
    exact find?_of_mem db.roleCodes hr
  rw [hrole] at hkept
  simp at hkept

theorem insertGrants_concludes {E : Db → AppError → Prop} (hE : ∀ d e, E d e) :
    Concludes (insertGrants roleCode keys) db
      (fun d _ => SameTables db d ∧ d.granted roleCode =
        {k | k ∈ db.granted roleCode ∨
          (k ∈ keys ∧ db.roleExists roleCode = true ∧
            ∃ p ∈ db.permissions, p.permissionKey = k)}) E := by
  induction keys generalizing db with
  | nil =>
    refine .done ⟨⟨rfl, rfl⟩, ?_⟩
    ext k
    simp
  | cons key rest ih =>
    unfold insertGrants
    refine .execute_bind (hE _ _) (ih.mono ?_ fun _ _ h => h)
    rintro d _ ⟨hsame, hgranted⟩
    refine ⟨⟨hsame.permissions, hsame.roles⟩, ?_⟩
    rw [hgranted, granted_insertGrant]
    ext k
    change _ ∨ (_ ∧ db.roleExists roleCode = true ∧ ∃ p ∈ db.permissions, _) ↔ _
    simp only [Set.mem_ofPred_eq, List.mem_cons]
    constructor
    · rintro ((h | ⟨rfl, h⟩) | ⟨hmem, h⟩)
      · exact .inl h
      · exact .inr ⟨.inl rfl, h⟩
      · exact .inr ⟨.inr hmem, h⟩
    · rintro (h | ⟨rfl | hmem, h⟩)
      · exact .inl (.inl h)
      · exact .inl (.inr ⟨rfl, h⟩)
      · exact .inr ⟨hmem, h⟩

/-- The role gets what was collected, or the call fails and leaves the tables alone. -/
theorem replaceRolePermissions_concludes (db : Db) (roleCode : String) (keys : List String) :
    Concludes (replaceRolePermissions roleCode keys) db
      (fun d _ => SameTables db d ∧ d.granted roleCode = Collected db keys ∧
        Grantable db roleCode keys)
      (fun d _ => d = db) := by
  unfold replaceRolePermissions
  refine .select_bind rfl (.rejectIf_bind (fun _ => rfl) fun hsystem => ?_)
  rw [Bool.not_eq_true] at hsystem
  refine .select_bind rfl (.rejectIf_bind (fun _ => rfl) fun hexists => ?_)
  rw [Bool.not_eq_false] at hexists
  refine .bind (normalize_concludes (Q := fun d l => d = db ∧
    ∀ key, key ∈ l ↔ key ∈ Collected db keys) rfl fun l hl => ⟨rfl, hl⟩) ?_
  rintro d l ⟨rfl, hl⟩
  refine .atomically rfl (fun _ _ => rfl) ?_
  refine .bind (checkKeys_concludes fun e hcommits => nomatch hcommits) ?_
  rintro d' _ ⟨rfl, hfound⟩
  refine .execute_bind (fun hcommits => nomatch hcommits)
    ((insertGrants_concludes fun d e hcommits => nomatch hcommits).mono ?_ fun _ _ h => h)
  rintro d _ ⟨hsame, hgranted⟩
  refine ⟨⟨hsame.permissions, hsame.roles⟩, ?_, hsystem, hexists,
    fun key hkey => hfound key ((hl key).mpr hkey)⟩
  change d.granted roleCode = _
  rw [hgranted, granted_deleteGrants]
  ext k
  change k ∈ (∅ : Set String) ∨ (k ∈ l ∧ d'.roleExists roleCode = true ∧
    ∃ p ∈ d'.permissions, p.permissionKey = k) ↔ _
  rw [hl]
  constructor
  · rintro (h | ⟨hmem, _⟩)
    · exact absurd h (Set.notMem_empty k)
    · exact hmem
  · intro hmem
    exact .inr ⟨hmem, hexists, hfound k ((hl k).mpr hmem)⟩

/-! ### A call that meets no failure -/

theorem addPages_returns (normalized : List String) :
    ∃ l, Returns (addPages normalized keys) db db l := by
  induction keys generalizing normalized with
  | nil => exact ⟨normalized, .done⟩
  | cons raw rest ih =>
    unfold addPages
    cases hp : db.permission raw with
    | none =>
      obtain ⟨l, hl⟩ := ih normalized
      refine ⟨l, .bind .select ?_⟩
      rw [hp]
      exact hl
    | some p =>
      by_cases htype : p.resourceType = "action"
      · obtain ⟨l, hl⟩ := ih (pushPages normalized (db.pagePermissionKeys p.resourceKey))
        refine ⟨l, .bind .select ?_⟩
        rw [hp]
        dsimp only
        rw [if_neg (not_not_intro htype)]
        exact .bind .select hl
      · obtain ⟨l, hl⟩ := ih normalized
        refine ⟨l, .bind .select ?_⟩
        rw [hp]
        dsimp only
        rw [if_pos htype]
        exact hl

theorem checkKeys_returns (h : ∀ key ∈ keys, ∃ p ∈ db.permissions, p.permissionKey = key) :
    Returns (checkKeys keys) db db () := by
  induction keys with
  | nil => exact .done
  | cons key rest ih =>
    unfold checkKeys
    refine .bind .select (.bind (.rejectIf ?_) (ih fun key' hkey' => h key' (by simp [hkey'])))
    obtain ⟨p, hp, rfl⟩ := h key (by simp)
    rw [permission_of_mem hp]
    exact Bool.false_ne_true

theorem insertGrants_returns (db : Db) :
    ∃ d, Returns (insertGrants roleCode keys) db d () := by
  induction keys generalizing db with
  | nil => exact ⟨db, .done⟩
  | cons key rest ih =>
    obtain ⟨d, hd⟩ := ih (db.insertGrant roleCode key)
    exact ⟨d, .bind .execute hd⟩

theorem replaceRolePermissions_returns (h : Grantable db roleCode keys) :
    ∃ d, Returns (replaceRolePermissions roleCode keys) db d () := by
  obtain ⟨l, hl⟩ : ∃ l, Returns (normalizePermissionKeys keys) db db l := by
    obtain ⟨l, hl⟩ := @addPages_returns db keys (trimKeys [] keys)
    exact ⟨Db.sorted l, .bind hl .done⟩
  have hmem : ∀ key, key ∈ l ↔ key ∈ Collected db keys := by
    obtain ⟨n', hrun⟩ := hl.run 0
    exact (normalize_concludes (E := fun _ _ => True) (Q := fun _ l => ∀ key, key ∈ l ↔
      key ∈ Collected db keys) trivial fun l hl => hl).ok hrun
  obtain ⟨d, hd⟩ := @insertGrants_returns l roleCode (db.deleteGrants roleCode)
  refine ⟨d, ?_⟩
  unfold replaceRolePermissions
  refine .bind .select (.bind (.rejectIf (Bool.eq_false_iff.mp h.custom)) ?_)
  refine .bind .select (.bind (.rejectIf (ne_false_of_eq_true h.role)) ?_)
  refine .bind hl (.atomically (.bind (checkKeys_returns ?_) (.bind .execute hd)) rfl)
  exact fun key hkey => h.found key ((hmem key).mp hkey)

end Call

/-! ## The least set -/

/-- The requested keys, with the pages of the actions among them. -/
def WithPages (db : Db) (keys : List String) : Set String :=
  {key | key ∈ Requested keys ∨ ∃ action ∈ Requested keys, db.PageOf action key}

/-- Where a key of the request and the trimmed one name different permissions, the pages of the one
and of the other are in the request already, or come with another key of it. -/
structure PagesFound (db : Db) (keys : List String) : Prop where
  named : ∀ action ∈ Requested keys, action ∉ keys → ∀ page, db.PageOf action page →
    page ∈ Requested keys ∨ ∃ other ∈ keys, db.PageOf other page
  padded : ∀ raw ∈ keys, raw ∉ Requested keys → ∀ page, db.PageOf raw page →
    page ∈ Requested keys ∨ ∃ action ∈ Requested keys, db.PageOf action page

/-- The pages that are added stay the same when they are trimmed, or become others of the set. -/
def PagesTrimmed (db : Db) (keys : List String) : Prop :=
  ∀ action ∈ Requested keys, ∀ page, db.PageOf action page →
    trim page = "" ∨ trim page ∈ WithPages db keys

section Least

variable {db db' : Db} {keys : List String} {roleCode : String}

/-- A page is no action. -/
theorem not_pageOf_page {action page other : String} (h : db.PageOf action page) :
    ¬ db.PageOf page other := by
  rintro ⟨a, ha, hname, htype, _⟩
  obtain ⟨_, _, _, _, p, hp, hpage, hpageType, _⟩ := h
  obtain rfl := eq_of_key db.permissionKeys ha hp (hname.trans hpage.symm)
  rw [htype] at hpageType
  exact absurd hpageType (by decide)

theorem least_withPages (db : Db) (keys : List String) : Least db keys (WithPages db keys) := by
  constructor
  · refine ⟨fun key hkey => .inl hkey, ?_⟩
    rintro action (hrequested | ⟨first, _, hpage⟩) page hpageOf
    · exact .inr ⟨action, hrequested, hpageOf⟩
    · exact absurd hpageOf (not_pageOf_page hpage)
  · rintro s ⟨hsub, hclosed⟩ key (hrequested | ⟨action, haction, hpageOf⟩)
    · exact hsub hrequested
    · exact hclosed action (hsub haction) key hpageOf

theorem least_iff {s : Set String} : Least db keys s ↔ s = WithPages db keys :=
  ⟨fun h => h.unique (least_withPages db keys), fun h => h ▸ least_withPages db keys⟩

theorem collected_iff : Collected db keys = WithPages db keys ↔ PagesFound db keys := by
  constructor
  · intro heq
    constructor
    · intro action haction _ page hpage
      have hmem : page ∈ WithPages db keys := .inr ⟨action, haction, hpage⟩
      rw [← heq] at hmem
      exact hmem
    · intro raw hraw _ page hpage
      have hmem : page ∈ Collected db keys := .inr ⟨raw, hraw, hpage⟩
      rw [heq] at hmem
      exact hmem
  · intro h
    ext key
    constructor
    · rintro (hrequested | ⟨raw, hraw, hpage⟩)
      · exact .inl hrequested
      · by_cases hr : raw ∈ Requested keys
        · exact .inr ⟨raw, hr, hpage⟩
        · exact h.padded raw hraw hr key hpage
    · rintro (hrequested | ⟨action, haction, hpage⟩)
      · exact .inl hrequested
      · by_cases ha : action ∈ keys
        · exact .inr ⟨action, ha, hpage⟩
        · exact h.named action haction ha key hpage

theorem collected_congr {keys' : List String} (h : ∀ key, key ∈ keys' ↔ key ∈ keys) :
    Collected db keys' = Collected db keys := by
  unfold Collected Requested
  simp only [h]

/-- To grant the result again is accepted, unless a statement breaks, and changes nothing. -/
def Regrants (db : Db) (roleCode : String) : Prop :=
  ∀ again : List String, (∀ key, key ∈ again ↔ key ∈ db.granted roleCode) →
    (∃ d, Returns (replaceRolePermissions roleCode again) db d ()) ∧
    ∀ faults n n' d, replaceRolePermissions roleCode again faults n db = (n', d, .ok ()) →
      d.granted roleCode = db.granted roleCode

theorem SameTables.pageOf (h : SameTables db db') {action page : String} :
    db'.PageOf action page ↔ db.PageOf action page := by
  unfold Db.PageOf
  rw [h.permissions]

/-- What a second call collects: the pages again, each also trimmed. -/
theorem collected_again {again : List String}
    (hagain : ∀ key, key ∈ again ↔ key ∈ WithPages db keys) :
    Collected db again = {key | key ∈ WithPages db keys ∨ (key ≠ "" ∧
      ∃ action ∈ Requested keys, ∃ page, db.PageOf action page ∧ trim page = key)} := by
  have hrequested : ∀ key ∈ Requested keys, trim key = key ∧ key ≠ "" := by
    rintro key ⟨hne, raw, _, rfl⟩
    exact ⟨trim_trim raw, hne⟩
  ext key
  constructor
  · rintro (⟨hne, raw, hraw, htrim⟩ | ⟨raw, hraw, hpage⟩)
    · rcases (hagain raw).mp hraw with hr | ⟨action, haction, hpage⟩
      · rw [(hrequested raw hr).1] at htrim
        exact .inl (.inl (htrim ▸ hr))
      · exact .inr ⟨hne, action, haction, raw, hpage, htrim⟩
    · rcases (hagain raw).mp hraw with hr | ⟨action, _, hpage'⟩
      · exact .inl (.inr ⟨raw, hr, hpage⟩)
      · exact absurd hpage (not_pageOf_page hpage')
  · rintro ((hr | ⟨action, haction, hpage⟩) | ⟨hne, action, haction, page, hpage, htrim⟩)
    · exact .inl ⟨(hrequested key hr).2, key, (hagain key).mpr (.inl hr), (hrequested key hr).1⟩
    · exact .inr ⟨action, (hagain action).mpr (.inl haction), hpage⟩
    · exact .inl ⟨hne, page, (hagain page).mpr (.inr ⟨action, haction, hpage⟩), htrim⟩

theorem regrants_iff (hsame : SameTables db db') (hgrantable : Grantable db roleCode keys)
    (hgranted : db'.granted roleCode = Collected db keys)
    (hleast : Collected db keys = WithPages db keys) :
    Regrants db' roleCode ↔ PagesTrimmed db keys := by
  have hcollected {again : List String} (h : ∀ key, key ∈ again ↔ key ∈ db'.granted roleCode) :
      Collected db' again = {key | key ∈ WithPages db keys ∨ (key ≠ "" ∧
        ∃ action ∈ Requested keys, ∃ page, db.PageOf action page ∧ trim page = key)} := by
    rw [hgranted, hleast] at h
    rw [← collected_again h]
    unfold Collected
    simp only [hsame.pageOf]
  constructor
  · intro hregrants action haction page hpage
    classical
    have hlist : ∃ again : List String, ∀ key, key ∈ again ↔ key ∈ db'.granted roleCode := by
      refine ⟨(db.permissions.map (·.permissionKey)).filter (· ∈ db'.granted roleCode),
        fun key => ?_⟩
      rw [List.mem_filter, decide_eq_true_eq, and_iff_right_iff_imp]
      intro hkey
      rw [hgranted] at hkey
      exact List.mem_map.mpr (hgrantable.found key hkey)
    obtain ⟨again, hagain⟩ := hlist
    obtain ⟨⟨d, hd⟩, hstays⟩ := hregrants again hagain
    obtain ⟨n', hrun⟩ := hd.run 0
    have hmore := ((replaceRolePermissions_concludes db' roleCode again).ok hrun).2.1
    rw [hstays _ _ _ _ hrun, hcollected hagain, hgranted, hleast] at hmore
    by_cases hblank : trim page = ""
    · exact .inl hblank
    · right
      rw [hmore]
      exact .inr ⟨hblank, action, haction, page, hpage, rfl⟩
  · intro htrimmed again hagain
    have hstable : Collected db' again = WithPages db keys := by
      rw [hcollected hagain]
      ext key
      constructor
      · rintro (h | ⟨hne, action, haction, page, hpage, rfl⟩)
        · exact h
        · exact (htrimmed action haction page hpage).resolve_left hne
      · exact .inl
    constructor
    · refine replaceRolePermissions_returns ⟨?_, ?_, ?_⟩
      · unfold Db.isSystemRole Db.role
        rw [hsame.roles]
        exact hgrantable.custom
      · unfold Db.roleExists
        rw [hsame.roles]
        exact hgrantable.role
      · rw [hstable, ← hleast, hsame.permissions]
        exact hgrantable.found
    · intro faults n n' d hrun
      rw [((replaceRolePermissions_concludes db' roleCode again).ok hrun).2.1, hstable, hgranted,
        hleast]

/-- What a call that succeeds grants is the least set, and granting it again changes nothing,
exactly if the padded keys of the request do not matter and the added pages are trimmed. The order
and the repetition of the keys never matter, the white space around them does not among such
requests, and a call that fails changes nothing. -/
theorem role_permissions_are_least (db : Db) (roleCode : String) (keys : List String)
    (faults : Faults) (n n' : Nat) (db' : Db)
    (hrun : replaceRolePermissions roleCode keys faults n db = (n', db', .ok ())) :
    ((Least db keys (db'.granted roleCode) ∧ Regrants db' roleCode) ↔
      (PagesFound db keys ∧ PagesTrimmed db keys)) ∧
    (∀ keys', ((∀ key, key ∈ keys' ↔ key ∈ keys) ∨
        (Requested keys' = Requested keys ∧ PagesFound db keys ∧ PagesFound db keys')) →
      ∀ faults n n' d, replaceRolePermissions roleCode keys' faults n db = (n', d, .ok ()) →
        d.granted roleCode = db'.granted roleCode) ∧
    ∀ keys' faults n n' d e,
      replaceRolePermissions roleCode keys' faults n db = (n', d, .error e) → d = db := by
  obtain ⟨hsame, hgranted, hgrantable⟩ :=
    (replaceRolePermissions_concludes db roleCode keys).ok hrun
  refine ⟨?_, ?_, ?_⟩
  · rw [hgranted, least_iff, ← collected_iff]
    constructor
    · rintro ⟨hleast, hregrants⟩
      exact ⟨hleast, (regrants_iff hsame hgrantable hgranted hleast).mp hregrants⟩
    · rintro ⟨hleast, htrimmed⟩
      exact ⟨hleast, (regrants_iff hsame hgrantable hgranted hleast).mpr htrimmed⟩
  · intro keys' hkeys faults n n' d hrun'
    rw [((replaceRolePermissions_concludes db roleCode keys').ok hrun').2.1, hgranted]
    rcases hkeys with hkeys | ⟨hrequested, hfound, hfound'⟩
    · exact collected_congr hkeys
    · rw [collected_iff.mpr hfound, collected_iff.mpr hfound']
      unfold WithPages
      rw [hrequested]
  · intro keys' faults n n' d e hrun'
    exact (replaceRolePermissions_concludes db roleCode keys').error hrun'

end Least

/-! ## Two requests -/

def workItemDb : Db where
  permissions := [⟨1, "work_item.view", "page", "work-items"⟩,
    ⟨2, "work_item.manage", "action", "work-items"⟩]
  roles := [⟨1, "developer", false⟩]
  rolePermissions := []
  permissionIds := by decide
  permissionKeys := by decide
  roleCodes := by decide

theorem workItemDb_grantable (key : String) (h : trim key = "work_item.manage") :
    Grantable workItemDb "developer" [key] where
  custom := by decide
  role := by decide
  found := by
    rintro k (⟨_, raw, hraw, rfl⟩ | ⟨_, _, _, _, _, _, p, hp, hname, _⟩)
    · rw [List.mem_singleton.mp hraw, h]
      exact ⟨_, List.mem_cons_of_mem _ List.mem_cons_self, rfl⟩
    · exact ⟨p, hp, hname⟩

theorem workItemDb_pageOf : workItemDb.PageOf "work_item.manage" "work_item.view" :=
  ⟨_, List.mem_cons_of_mem _ List.mem_cons_self, rfl, rfl, _, List.mem_cons_self, rfl, rfl, rfl⟩

theorem manage_brings_view :
    ∃ n' db', replaceRolePermissions "developer" ["work_item.manage"] (fun _ => false) 0
        workItemDb = (n', db', .ok ()) ∧
      Least workItemDb ["work_item.manage"] (db'.granted "developer") ∧
      Regrants db' "developer" := by
  obtain ⟨db', hreturns⟩ := replaceRolePermissions_returns
    (workItemDb_grantable "work_item.manage" (by decide +kernel))
  obtain ⟨n', hrun⟩ := hreturns.run 0
  have hrequested : "work_item.manage" ∈ Requested ["work_item.manage"] :=
    ⟨by decide, "work_item.manage", List.mem_cons_self, by decide +kernel⟩
  refine ⟨n', db', hrun, (role_permissions_are_least workItemDb "developer" ["work_item.manage"]
    (fun _ => false) 0 n' db' hrun).1.mpr ⟨⟨?_, ?_⟩, ?_⟩⟩
  · rintro action ⟨_, raw, hraw, rfl⟩ hnot
    rw [List.mem_singleton.mp hraw] at hnot
    exact absurd (by decide +kernel) hnot
  · intro raw hraw hnot
    rw [List.mem_singleton.mp hraw] at hnot
    exact absurd hrequested hnot
  · rintro action _ page ⟨_, _, _, _, p, hp, rfl, _⟩
    have hall : ∀ p ∈ workItemDb.permissions, p.permissionKey = "work_item.view" ∨
        p.permissionKey = "work_item.manage" := by decide
    right
    rcases hall p hp with heq | heq
    · rw [heq, show trim "work_item.view" = "work_item.view" by decide +kernel]
      exact .inr ⟨_, hrequested, workItemDb_pageOf⟩
    · rw [heq, show trim "work_item.manage" = "work_item.manage" by decide +kernel]
      exact .inl hrequested

/-- The same key with a space in front of it. -/
theorem padded_manage_misses_view :
    ∃ n' db', replaceRolePermissions "developer" [" work_item.manage"] (fun _ => false) 0
        workItemDb = (n', db', .ok ()) ∧
      ¬ Least workItemDb [" work_item.manage"] (db'.granted "developer") := by
  obtain ⟨db', hreturns⟩ := replaceRolePermissions_returns
    (workItemDb_grantable " work_item.manage" (by decide +kernel))
  obtain ⟨n', hrun⟩ := hreturns.run 0
  refine ⟨n', db', hrun, fun hleast => ?_⟩
  rw [((replaceRolePermissions_concludes workItemDb "developer" _).ok hrun).2.1] at hleast
  have hrequested : "work_item.manage" ∈ Requested [" work_item.manage"] :=
    ⟨by decide, " work_item.manage", List.mem_cons_self, by decide +kernel⟩
  rcases hleast.1.2 "work_item.manage" (.inl hrequested) "work_item.view" workItemDb_pageOf with
    ⟨_, raw, hraw, htrim⟩ | ⟨raw, hraw, a, ha, hname, _⟩
  · rw [List.mem_singleton.mp hraw] at htrim
    exact absurd htrim (by decide +kernel)
  · rw [List.mem_singleton.mp hraw] at hname
    have hall : ∀ p ∈ workItemDb.permissions, p.permissionKey ≠ " work_item.manage" := by decide
    exact hall a ha hname

end Rbac
end Yuance
