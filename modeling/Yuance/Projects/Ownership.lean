import Yuance.Projects.History

/-!
# Yuance.Projects.Ownership

The owner of a project, who stands in `projects.owner_user_id` and in the role of a member. The calls
look at the owner before their transaction; `add_project_members` does not look at all.

* `Owned`: the members of a project with the role of an owner are its owner.
* `KeepsOwner`: a transaction finds the owner as its call took it to be.
-/

namespace Yuance
namespace Projects
namespace Ownership

open Lib Platform

/-- The owner is a member, and no other member has the role. -/
structure Owned (db : Db) (p : Project) : Prop where
  member : ∃ m ∈ db.members, m.projectId = p.id ∧ p.ownerUserId = some m.userId
  role : ∀ m ∈ db.members, m.projectId = p.id → (m.role = .owner ↔ p.ownerUserId = some m.userId)

structure Inv (db : Db) : Prop where
  ids : (db.projects.map (·.id)).Nodup
  bound : ∀ p ∈ db.projects, p.id < db.nextProject
  members : ∀ m ∈ db.members, m.projectId < db.nextProject
  keys : (db.members.map fun m => (m.projectId, m.userId)).Nodup
  owned : ∀ p ∈ db.projects, Owned db p

/-- The transaction does not take the role from the owner nor give it to another. -/
def KeepsOwner (db : Db) : Statement → Prop
  | .updateProject u => db.isMember u.projectId u.ownerUserId = true ∧
      (u.previousOwnerUserId = some u.ownerUserId →
        ∀ p, db.project u.projectId = some p → p.ownerUserId = some u.ownerUserId)
  | .addMembers projectId _ selected role => ∀ p, db.project projectId = some p →
      ∀ user ∈ selected, role = .owner ↔ p.ownerUserId = some user.id
  | .removeMember projectId userId _ _ => ∀ p, db.project projectId = some p →
      p.ownerUserId ≠ some userId
  | .setMemberRole projectId userId _ _ _ _ => ∀ p, db.project projectId = some p →
      p.ownerUserId ≠ some userId
  | _ => True

section Steps

variable {db : Db}

theorem isMember_iff {projectId userId : Int} :
    db.isMember projectId userId = true ↔
      ∃ m ∈ db.members, m.projectId = projectId ∧ m.userId = userId := by
  unfold Db.isMember
  rw [List.any_eq_true]
  simp only [Bool.and_eq_true, beq_iff_eq]

theorem project_mem {id : Int} {p : Project} (h : db.project id = some p) : p ∈ db.projects :=
  List.mem_of_find?_eq_some h

theorem project_id {id : Int} {p : Project} (h : db.project id = some p) : p.id = id := by
  unfold Db.project at h
  exact beq_iff_eq.mp (List.find?_some (p := fun q : Project => q.id == id) h)

theorem project_of_mem (h : Inv db) {p : Project} (hp : p ∈ db.projects) :
    db.project p.id = some p := by
  cases hfind : db.project p.id with
  | none =>
    have hnone := List.find?_eq_none.mp hfind p hp
    exact absurd (beq_self_eq_true p.id) hnone
  | some q => rw [eq_of_key h.ids (project_mem hfind) hp (project_id hfind)]

/-- Tables with the same projects and members. -/
theorem keeps_same {db' : Db} (h : Inv db) (hprojects : db'.projects = db.projects)
    (hnext : db'.nextProject = db.nextProject) (hmembers : db'.members = db.members) : Inv db' := by
  refine ⟨?_, ?_, ?_, ?_, ?_⟩
  · rw [hprojects]
    exact h.ids
  · rw [hprojects, hnext]
    exact h.bound
  · rw [hmembers, hnext]
    exact h.members
  · rw [hmembers]
    exact h.keys
  · rw [hprojects]
    intro p hp
    obtain ⟨h1, h2⟩ := h.owned p hp
    refine ⟨?_, ?_⟩
    · rw [hmembers]
      exact h1
    · rw [hmembers]
      exact h2

/-- An update of the roles, and of the owner of the projects, that keeps all keys. -/
theorem keeps_map {db' : Db} (h : Inv db) {f : Member → Member} {g : Project → Project}
    (hmembers : db'.members = db.members.map f) (hprojects : db'.projects = db.projects.map g)
    (hnext : db'.nextProject = db.nextProject)
    (hf : ∀ m, (f m).projectId = m.projectId ∧ (f m).userId = m.userId) (hg : ∀ p, (g p).id = p.id)
    (howned : ∀ p ∈ db.projects,
      (∃ m ∈ db.members, m.projectId = p.id ∧ (g p).ownerUserId = some m.userId) ∧
      ∀ m ∈ db.members, m.projectId = p.id →
        ((f m).role = .owner ↔ (g p).ownerUserId = some m.userId)) : Inv db' := by
  refine ⟨?_, ?_, ?_, ?_, ?_⟩
  · rw [hprojects, List.map_map]
    have hcongr : db.projects.map ((·.id) ∘ g) = db.projects.map (·.id) :=
      List.map_congr_left fun p _ => hg p
    rw [hcongr]
    exact h.ids
  · intro p' hp'
    rw [hprojects] at hp'
    obtain ⟨p, hp, rfl⟩ := List.mem_map.mp hp'
    rw [hg, hnext]
    exact h.bound p hp
  · intro m' hm'
    rw [hmembers] at hm'
    obtain ⟨m, hm, rfl⟩ := List.mem_map.mp hm'
    rw [(hf m).1, hnext]
    exact h.members m hm
  · rw [hmembers, List.map_map]
    have hcongr : db.members.map ((fun m => (m.projectId, m.userId)) ∘ f) =
        db.members.map fun m => (m.projectId, m.userId) := by
      apply List.map_congr_left
      intro m _
      simp only [Function.comp_apply, (hf m).1, (hf m).2]
    rw [hcongr]
    exact h.keys
  · intro p' hp'
    rw [hprojects] at hp'
    obtain ⟨p, hp, rfl⟩ := List.mem_map.mp hp'
    obtain ⟨⟨m, hm, hproject, howner⟩, hrole⟩ := howned p hp
    refine ⟨⟨f m, ?_, ?_, ?_⟩, ?_⟩
    · rw [hmembers]
      exact List.mem_map_of_mem hm
    · rw [(hf m).1, hg, hproject]
    · rw [(hf m).2, howner]
    · intro n' hn' hid
      rw [hmembers] at hn'
      obtain ⟨n, hn, rfl⟩ := List.mem_map.mp hn'
      rw [(hf n).2]
      apply hrole n hn
      rw [← (hf n).1, hid, hg]

/-- One member gets another role. -/
theorem setRole_keeps {db' : Db} (h : Inv db) {projectId userId : Int} {role : MemberRole}
    (hmembers : db'.members = updateWhere (fun m => m.projectId == projectId && m.userId == userId)
      ({ · with role := role }) db.members)
    (hprojects : db'.projects = db.projects) (hnext : db'.nextProject = db.nextProject)
    (hrole : ∀ p ∈ db.projects, p.id = projectId →
      (role = .owner ↔ p.ownerUserId = some userId)) : Inv db' := by
  refine keeps_map h (g := fun p => p) hmembers ?_ hnext ?_ (fun _ => rfl) ?_
  · rw [hprojects, List.map_id']
  · intro m
    split
    · exact ⟨rfl, rfl⟩
    · exact ⟨rfl, rfl⟩
  · intro p hp
    obtain ⟨h1, h2⟩ := h.owned p hp
    refine ⟨h1, ?_⟩
    intro m hm hid
    split
    · rename_i hthis
      rw [Bool.and_eq_true, beq_iff_eq, beq_iff_eq] at hthis
      rw [hthis.2]
      exact hrole p hp (hid.symm.trans hthis.1)
    · exact h2 m hm hid

theorem upsertMember_keeps (h : Inv db) {projectId userId : Int} {role : MemberRole} {now : Int}
    {p : Project} (hp : db.project projectId = some p)
    (hrole : role = .owner ↔ p.ownerUserId = some userId) :
    Inv (db.upsertMember projectId userId role now) := by
  have hthis : ∀ q ∈ db.projects, q.id = projectId → q = p := by
    intro q hq hid
    exact eq_of_key h.ids hq (project_mem hp) (hid.trans (project_id hp).symm)
  unfold Db.upsertMember
  split
  · apply setRole_keeps h
    · rfl
    · rfl
    · rfl
    · intro q hq hid
      rw [hthis q hq hid]
      exact hrole
  · rename_i hnew
    have hfresh : ∀ m ∈ db.members, m.projectId = projectId → m.userId ≠ userId := by
      intro m hm hproject huser
      exact hnew (isMember_iff.mpr ⟨m, hm, hproject, huser⟩)
    refine ⟨h.ids, h.bound, ?_, ?_, ?_⟩
    · intro m hm
      rcases List.mem_append.mp hm with hmem | hmem
      · exact h.members m hmem
      · obtain rfl := List.mem_singleton.mp hmem
        rw [← project_id hp]
        exact h.bound p (project_mem hp)
    · rw [List.map_append]
      apply List.Nodup.append h.keys (List.nodup_singleton _)
      intro key hkey hlast
      obtain ⟨m, hm, rfl⟩ := List.mem_map.mp hkey
      obtain ⟨h1, h2⟩ := Prod.mk.inj (List.mem_singleton.mp hlast)
      exact hfresh m hm h1 h2
    · intro q hq
      obtain ⟨⟨m, hm, hproject, howner⟩, hroles⟩ := h.owned q hq
      refine ⟨⟨m, List.mem_append_left _ hm, hproject, howner⟩, ?_⟩
      intro n hn hid
      rcases List.mem_append.mp hn with hmem | hmem
      · exact hroles n hmem hid
      · obtain rfl := List.mem_singleton.mp hmem
        rw [hthis q hq hid.symm]
        exact hrole

theorem upsertMember_frame (projectId userId : Int) (role : MemberRole) (now : Int) :
    (db.upsertMember projectId userId role now).projects = db.projects ∧
      (db.upsertMember projectId userId role now).nextProject = db.nextProject := by
  unfold Db.upsertMember
  split
  · exact ⟨rfl, rfl⟩
  · exact ⟨rfl, rfl⟩

theorem addMembers_keeps (h : Inv db) {projectId : Int} {p : Project}
    (hp : db.project projectId = some p) (actorUserId : Int) {selected : List User}
    {role : MemberRole} (now : Int)
    (hrole : ∀ user ∈ selected, role = .owner ↔ p.ownerUserId = some user.id) :
    Inv (db.addMembers projectId actorUserId selected role now) := by
  unfold Db.addMembers
  induction selected generalizing db with
  | nil => exact h
  | cons user rest ih =>
    rw [List.foldl_cons]
    have hone : Inv (db.upsertMember projectId user.id role now) :=
      upsertMember_keeps h hp (hrole user List.mem_cons_self)
    have hprojects := (@upsertMember_frame db projectId user.id role now).1
    apply ih
    · exact keeps_same hone rfl rfl rfl
    · unfold Db.project at hp ⊢
      rw [record_projects, hprojects]
      exact hp
    · exact fun other hother => hrole other (List.mem_cons_of_mem user hother)

theorem removeMember_keeps (h : Inv db) {projectId userId actorUserId now : Int} {username : String}
    (hother : ∀ p, db.project projectId = some p → p.ownerUserId ≠ some userId) :
    Inv (db.removeMember projectId userId actorUserId username now) := by
  refine ⟨h.ids, h.bound, ?_, ?_, ?_⟩
  · exact fun m hm => h.members m (List.mem_filter.mp hm).1
  · exact h.keys.sublist (List.filter_sublist.map _)
  · intro p hp
    obtain ⟨⟨m, hm, hproject, howner⟩, hroles⟩ := h.owned p hp
    refine ⟨⟨m, List.mem_filter.mpr ⟨hm, ?_⟩, hproject, howner⟩, ?_⟩
    · rw [Bool.not_eq_true', Bool.and_eq_false_iff, beq_eq_false_iff_ne, beq_eq_false_iff_ne]
      by_cases hthis : m.projectId = projectId
      · right
        intro huser
        have hfound := project_of_mem h hp
        rw [← hproject, hthis] at hfound
        rw [huser] at howner
        exact hother p hfound howner
      · exact .inl hthis
    · exact fun n hn => hroles n (List.mem_filter.mp hn).1

/-- What a transfer makes of a member. -/
def transferred (projectId ownerUserId : Int) (m : Member) : Member :=
  let demoted := if m.projectId == projectId && m.role == .owner && m.userId != ownerUserId then
    { m with role := .maintainer } else m
  if demoted.projectId == projectId && demoted.userId == ownerUserId then
    { demoted with role := .owner } else demoted

theorem transferOwnership_eq (projectId ownerUserId : Int) (members : List Member) :
    Db.transferOwnership projectId ownerUserId members =
      members.map (transferred projectId ownerUserId) := by
  unfold Db.transferOwnership updateWhere
  rw [List.map_map]
  rfl

theorem transferred_key (projectId ownerUserId : Int) (m : Member) :
    (transferred projectId ownerUserId m).projectId = m.projectId ∧
      (transferred projectId ownerUserId m).userId = m.userId := by
  unfold transferred
  dsimp only
  constructor
  · split <;> split <;> rfl
  · split <;> split <;> rfl

/-- Behind a transfer the new owner has the role, and nobody else. -/
theorem transferred_role (projectId ownerUserId : Int) (m : Member) :
    (transferred projectId ownerUserId m).role = .owner ↔
      if m.projectId = projectId then m.userId = ownerUserId else m.role = .owner := by
  unfold transferred
  by_cases hproject : m.projectId = projectId
  · by_cases huser : m.userId = ownerUserId
    · simp [hproject, huser]
    · by_cases hrole : m.role = .owner
      · simp [hproject, huser, hrole]
      · simp [hproject, huser, hrole]
  · simp [hproject]

theorem setProject_id (u : ProjectUpdate) (now : Int) (p : Project) :
    (if p.id == u.projectId then Db.setProject u now p else p).id = p.id := by
  split
  · rfl
  · rfl

/-- The members are not touched, and the owner is written again. -/
theorem rewriteOwner_keeps (h : Inv db) {u : ProjectUpdate} {now : Int}
    (hsame : u.previousOwnerUserId = some u.ownerUserId)
    (howner : ∀ p, db.project u.projectId = some p → p.ownerUserId = some u.ownerUserId) :
    Inv (db.updateProject u now) := by
  apply keeps_map h (f := fun m => m)
  · change (if u.previousOwnerUserId ≠ some u.ownerUserId then _ else db.members) = _
    rw [if_neg (not_not_intro hsame), List.map_id']
  · rfl
  · rfl
  · exact fun _ => ⟨rfl, rfl⟩
  · exact setProject_id u now
  · intro p hp
    obtain ⟨h1, h2⟩ := h.owned p hp
    have hkept : (if p.id == u.projectId then Db.setProject u now p else p).ownerUserId =
        p.ownerUserId := by
      split
      · rename_i hid
        have hfound := project_of_mem h hp
        rw [beq_iff_eq.mp hid] at hfound
        exact (howner p hfound).symm
      · rfl
    rw [hkept]
    exact ⟨h1, h2⟩

/-- A member becomes the owner in place of the others. -/
theorem transfer_keeps (h : Inv db) {u : ProjectUpdate} {now : Int}
    (hother : u.previousOwnerUserId ≠ some u.ownerUserId)
    (hmember : db.isMember u.projectId u.ownerUserId = true) :
    Inv (db.updateProject u now) := by
  obtain ⟨m₀, hm₀, hproject₀, huser₀⟩ := isMember_iff.mp hmember
  apply keeps_map h (f := transferred u.projectId u.ownerUserId)
  · change (if u.previousOwnerUserId ≠ some u.ownerUserId then
      Db.transferOwnership u.projectId u.ownerUserId db.members else db.members) = _
    rw [if_pos hother, transferOwnership_eq]
  · rfl
  · rfl
  · exact transferred_key u.projectId u.ownerUserId
  · exact setProject_id u now
  · intro p hp
    obtain ⟨h1, h2⟩ := h.owned p hp
    by_cases hid : p.id = u.projectId
    · rw [if_pos (beq_iff_eq.mpr hid)]
      refine ⟨⟨m₀, hm₀, hproject₀.trans hid.symm, ?_⟩, ?_⟩
      · rw [huser₀]
        rfl
      · intro m hm hmid
        rw [transferred_role, if_pos (hmid.trans hid)]
        change _ ↔ some u.ownerUserId = some m.userId
        rw [Option.some.injEq, eq_comm]
    · rw [if_neg fun hthis => hid (beq_iff_eq.mp hthis)]
      refine ⟨h1, ?_⟩
      intro m hm hmid
      rw [transferred_role, if_neg fun hthis => hid (hmid.symm.trans hthis)]
      exact h2 m hm hmid

theorem updateProject_keeps (h : Inv db) {u : ProjectUpdate} {now : Int}
    (hmember : db.isMember u.projectId u.ownerUserId = true)
    (hprevious : u.previousOwnerUserId = some u.ownerUserId →
      ∀ p, db.project u.projectId = some p → p.ownerUserId = some u.ownerUserId) :
    Inv (db.updateProject u now) := by
  by_cases hsame : u.previousOwnerUserId = some u.ownerUserId
  · exact rewriteOwner_keeps h hsame (hprevious hsame)
  · exact transfer_keeps h hsame hmember

/-- A new project with its owner as the only member. -/
theorem insertProject_fst (p : ProjectInsert) (now : Int)
    (hnew : db.isMember db.nextProject p.actorUserId = false) :
    (db.insertProject p now).1 = db ∨ ∃ row : Project, row.id = db.nextProject ∧
      row.ownerUserId = some p.actorUserId ∧
      (db.insertProject p now).1.projects = db.projects ++ [row] ∧
      (db.insertProject p now).1.nextProject = db.nextProject + 1 ∧
      (db.insertProject p now).1.members =
        db.members ++ [⟨db.nextProject, p.actorUserId, .owner, now⟩] := by
  unfold Db.insertProject
  split
  · exact .inl rfl
  dsimp only
  rcases byUser_fst db p.actorUserId _ with hsame | hinserted
  · exact .inl hsame
  · rw [hinserted]
    have hframe := fun d : Db => @upsertMember_frame d db.nextProject p.actorUserId .owner now
    refine .inr ⟨_, ?_, ?_, (hframe _).1, (hframe _).2, ?_⟩
    · rfl
    · rfl
    · unfold Db.upsertMember
      rw [if_neg]
      · rfl
      · intro hmember
        have hold : db.isMember db.nextProject p.actorUserId = true := hmember
        rw [hnew] at hold
        cases hold

theorem insertProject_keeps (h : Inv db) (p : ProjectInsert) (now : Int) :
    Inv (db.insertProject p now).1 := by
  have hfresh : ∀ m ∈ db.members, m.projectId ≠ db.nextProject := by
    intro m hm hid
    have := h.members m hm
    omega
  have hnew : db.isMember db.nextProject p.actorUserId = false := by
    rw [← Bool.not_eq_true]
    intro hmember
    obtain ⟨m, hm, hid, _⟩ := isMember_iff.mp hmember
    exact hfresh m hm hid
  rcases insertProject_fst p now hnew with hsame | ⟨row, hid, howner, hprojects, hnext, hmembers⟩
  · rw [hsame]
    exact h
  refine ⟨?_, ?_, ?_, ?_, ?_⟩
  · rw [hprojects, List.map_append]
    apply List.Nodup.append h.ids (List.nodup_singleton _)
    intro id hold hlast
    obtain ⟨q, hq, rfl⟩ := List.mem_map.mp hold
    have hlt := h.bound q hq
    have heq : q.id = row.id := List.mem_singleton.mp hlast
    omega
  · rw [hprojects, hnext]
    intro q hq
    rcases List.mem_append.mp hq with hmem | hmem
    · have := h.bound q hmem
      omega
    · rw [List.mem_singleton.mp hmem]
      omega
  · rw [hmembers, hnext]
    intro m hm
    rcases List.mem_append.mp hm with hmem | hmem
    · have := h.members m hmem
      omega
    · rw [List.mem_singleton.mp hmem]
      exact Int.lt_succ _
  · rw [hmembers, List.map_append]
    apply List.Nodup.append h.keys (List.nodup_singleton _)
    intro key hkey hlast
    obtain ⟨m, hm, rfl⟩ := List.mem_map.mp hkey
    exact hfresh m hm (Prod.mk.inj (List.mem_singleton.mp hlast)).1
  · rw [hprojects]
    intro q hq
    rcases List.mem_append.mp hq with hmem | hmem
    · obtain ⟨⟨m, hm, hproject, hq⟩, hroles⟩ := h.owned q hmem
      refine ⟨⟨m, ?_, hproject, hq⟩, ?_⟩
      · rw [hmembers]
        exact List.mem_append_left _ hm
      · rw [hmembers]
        intro n hn hnid
        rcases List.mem_append.mp hn with hnmem | hnmem
        · exact hroles n hnmem hnid
        · -- the new member belongs to the new project
          rw [List.mem_singleton.mp hnmem] at hnid
          have := h.bound q hmem
          change db.nextProject = q.id at hnid
          omega
    · rw [List.mem_singleton.mp hmem]
      refine ⟨⟨⟨db.nextProject, p.actorUserId, .owner, now⟩, ?_, hid.symm, howner⟩, ?_⟩
      · rw [hmembers]
        exact List.mem_append_right _ List.mem_cons_self
      · rw [hmembers]
        intro n hn hnid
        rcases List.mem_append.mp hn with hnmem | hnmem
        · exact absurd (hnid.trans hid) (hfresh n hnmem)
        · rw [List.mem_singleton.mp hnmem, howner]
          simp

theorem perform_keeps (h : Inv db) {st : Statement} (hchecked : Checked true st)
    (hc : KeepsOwner db st) (m : Moment) : Inv (perform m st db).1 := by
  rcases perform_written m st db with heq | heq
  · rw [heq]
    exact h
  rw [heq]
  cases st with
  | insertProject p => exact insertProject_keeps h p m.now
  | updateProject u => exact updateProject_keeps h hc.1 hc.2
  | addMembers projectId actorUserId selected role =>
    simp only [Statement.written]
    split
    · rename_i hsome
      obtain ⟨p, hp⟩ := Option.isSome_iff_exists.mp hsome
      exact addMembers_keeps h hp actorUserId m.now (hc p hp)
    · exact h
  | removeMember projectId userId actorUserId username => exact removeMember_keeps h hc
  | setMemberRole projectId userId actorUserId username oldRole role =>
    apply setRole_keeps h
    · rfl
    · rfl
    · rfl
    · intro p hp hid
      have hfound := project_of_mem h hp
      rw [hid] at hfound
      constructor
      · intro hrole
        exact absurd hrole hchecked
      · intro howner
        exact absurd howner (hc p hfound)
  | insertItem i =>
    change Inv (db.insertItem i m.now).1
    unfold Db.insertItem
    dsimp only
    split
    · exact h
    · exact keeps_same h rfl rfl rfl
  | writeItems actorUserId writes =>
    have hframe : (db.writeItems writes m.now).projects = db.projects ∧
        (db.writeItems writes m.now).nextProject = db.nextProject := by
      unfold Db.writeItems
      clear heq hc hchecked
      induction writes generalizing db with
      | nil => exact ⟨rfl, rfl⟩
      | cons w writes ih =>
        rw [List.foldl_cons]
        exact ih (keeps_same h rfl rfl rfl)
    exact keeps_same h hframe.1 hframe.2 (writeItems_members writes)
  | archiveItem read actorUserId => exact keeps_same h rfl rfl rfl
  | restoreItem itemKey actorUserId =>
    change Inv (db.restoreItem itemKey actorUserId m.now).1
    rcases @restoreItem_fst db m.now itemKey actorUserId with hsame | ⟨row, -, -, hundeleted⟩
    · rw [hsame]
      exact h
    · rw [hundeleted]
      exact keeps_same h rfl rfl rfl
  | _ => exact h

end Steps

def owning : Discipline Statement Statement.Answer AppError Db Moment where
  perform := perform
  R := fun _ _ => True
  I := Inv
  C := KeepsOwner
  refl := fun _ => trivial
  trans := fun _ _ _ _ _ => trivial

/-- Exactly one member of each project has the role of the owner: its owner. -/
def OneOwner (db : Db) : Prop :=
  ∀ p ∈ db.projects, ∃ m, (db.members.filter fun m => m.projectId == p.id && m.role == .owner) = [m] ∧
    p.ownerUserId = some m.userId

theorem Inv.oneOwner {db : Db} (h : Inv db) : OneOwner db := by
  intro p hp
  obtain ⟨⟨m, hm, hproject, howner⟩, hroles⟩ := h.owned p hp
  let owners := db.members.filter fun m => m.projectId == p.id && m.role == .owner
  have howners : ∀ n ∈ owners, n = m := by
    intro n hn
    obtain ⟨hn, hrow⟩ := List.mem_filter.mp hn
    rw [Bool.and_eq_true, beq_iff_eq, beq_iff_eq] at hrow
    have huser := (hroles n hn hrow.1).mp hrow.2
    rw [howner, Option.some.injEq] at huser
    exact eq_of_key h.keys hn hm (by rw [hrow.1, hproject, huser])
  have hmem : m ∈ owners := by
    refine List.mem_filter.mpr ⟨hm, ?_⟩
    rw [Bool.and_eq_true, beq_iff_eq, beq_iff_eq]
    exact ⟨hproject, (hroles m hm hproject).mpr howner⟩
  have hnodup : owners.Nodup := (h.keys.of_map).filter _
  refine ⟨m, ?_, howner⟩
  exact List.perm_singleton.mp ((List.perm_ext_iff_of_nodup hnodup (List.nodup_singleton m)).mpr
    fun n => ⟨fun hn => List.mem_singleton.mpr (howners n hn),
      fun hn => (List.mem_singleton.mp hn) ▸ hmem⟩)

/-- From tables without projects on, in every run whose transactions find the owner as their calls
took him to be, each project has one owner. -/
theorem ownership_is_unique (db : Db) (h0 : db.projects = [] ∧ db.members = [])
    (tr : List (Entry Server (Turn Request Moment) Unit)) (s : Server)
    (hrun : Run (serve perform start) { db := db, calls := [] } tr s)
    (hok : ∀ x ∈ tr, Meets KeepsOwner x.pre x.event) : OneOwner s.db := by
  have hinit : Inv db := by
    refine ⟨?_, ?_, ?_, ?_, ?_⟩
    · simp [h0.1]
    · simp [h0.1]
    · simp [h0.2]
    · simp [h0.2]
    · simp [h0.1]
  have hkeeps : ∀ request d, Quiet owning (start request) d := by
    intro request d
    refine keeps_of_issues (start_checked request) ?_
    intro st hst b m hi hc
    exact ⟨perform_keeps hi hst hc m, trivial⟩
  exact (serve_invariant (D := owning) hinit hkeeps hrun hok).1.oneOwner

/-- Two users and no projects. -/
def emptyDb : Db := { taskDb with projects := [], nextProject := 1, members := [], workItems := [] }

def newProject : CreateProjectInput where
  name := "Alpha"
  description := ""
  status := "in_progress"
  startDate := ""
  dueDate := ""

/-- The first user creates a project, and makes the second a member. -/
def addedMember (role : String) : List (Turn Request Moment) :=
  [.begin (.createProject 1 newProject fun _ => "PA"), .resume 0 calm, .resume 0 calm,
    .begin (.addProjectMembers 1 "PA" ["bob"] role), .resume 1 calm, .resume 1 calm, .resume 1 calm]

theorem added_member_is_no_owner :
    ∃ tr s, exec (serve perform start) ({ db := emptyDb, calls := [] } : Server)
        (addedMember "maintainer") = some (tr, s) ∧ s.db.members.map (·.userId) = [1, 2] ∧
      OneOwner s.db := by
  obtain ⟨r, hr⟩ : ∃ r, exec (serve perform start) ({ db := emptyDb, calls := [] } : Server)
      (addedMember "maintainer") = some r := ⟨_, rfl⟩
  have hmembers : (exec (serve perform start) ({ db := emptyDb, calls := [] } : Server)
      (addedMember "maintainer")).map (fun r => r.2.db.members.map (·.userId)) = some [1, 2] := by
    decide +kernel
  rw [hr] at hmembers
  refine ⟨r.1, r.2, hr, Option.some.inj hmembers, ?_⟩
  apply ownership_is_unique emptyDb ⟨rfl, rfl⟩ r.1 r.2 (run_of_exec hr)
  intro x hx
  refine checks_exec (C := Meets KeepsOwner) hr ?_ hx
  refine ⟨trivial, meets_resume rfl trivial, meets_resume rfl trivial, trivial,
    meets_resume rfl trivial, meets_resume rfl trivial, meets_resume rfl ?_, trivial⟩
  intro p hp user huser
  cases hp
  obtain rfl := List.mem_singleton.mp huser
  decide

/-- The second member is given the role of the owner. -/
theorem added_member_may_be_owner :
    ∃ db tr s, db.projects = [] ∧ db.members = [] ∧
      Run (serve perform start) ({ db := db, calls := [] } : Server) tr s ∧ ¬OneOwner s.db := by
  obtain ⟨r, hr⟩ : ∃ r, exec (serve perform start) ({ db := emptyDb, calls := [] } : Server)
      (addedMember "owner") = some r := ⟨_, rfl⟩
  have howners : (exec (serve perform start) ({ db := emptyDb, calls := [] } : Server)
      (addedMember "owner")).map (fun r => r.2.db.projects.map fun p =>
        (r.2.db.members.filter fun m => m.projectId == p.id && m.role == .owner).length) =
      some [2] := by
    decide +kernel
  rw [hr] at howners
  obtain ⟨p, hprojects, hcount⟩ := List.map_eq_singleton_iff.mp (Option.some.inj howners)
  refine ⟨emptyDb, r.1, r.2, rfl, rfl, run_of_exec hr, ?_⟩
  intro hone
  obtain ⟨m, hm, _⟩ := hone p (by rw [hprojects]; exact List.mem_singleton.mpr rfl)
  rw [hm] at hcount
  cases hcount

end Ownership
end Projects
end Yuance
