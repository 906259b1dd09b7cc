import Yuance.Projects.Drafts

/-!
# Yuance.Projects.DraftsEnd

Publications and cancellations of drafts beside each other. The transaction of either ends a draft
only if it still is one, so the first that commits is the only one.

* `Recipient`: who a published comment notifies.
* `Told`: a draft has notified nobody, a published comment each recipient once.
* `Grants`: what a publication has made sure of before its transaction.
-/

namespace Yuance
namespace Projects
namespace Drafts

open Lib Platform

/-! ## Who is notified -/

namespace Db

variable (db : Db)

/-- The author of the comment that a comment replies to. -/
def replyTarget (id : Int) : Option Int :=
  ((db.comment id).bind (·.parentCommentId)).bind fun parent =>
    (db.comment parent).bind (·.authorUserId)

/-- The users that a body of the comment mentions. -/
def mentioned (id : Int) (body : String) (bodyFormat : CommentBodyFormat) : List Int :=
  match (db.comment id).bind fun c => db.base.workItem c.workItemId,
    extractCommentMentionUsernames body bodyFormat with
  | some item, .ok usernames => (db.mentionTargets item.projectId usernames).map (·.1)
  | _, _ => []

/-- The notifications about the comment. -/
def notificationsOf (id : Int) : List Notification :=
  db.notifications.filter (·.commentId == some id)

end Db

/-- Who the published comment notifies: the author it replies to and the users it mentions. The one
who acts is among them only as the author it replies to, where it does not mention him and was given
a name to act under. -/
def Recipient (db : Db) (c : CommentRow) (userId : Int) : Prop :=
  if c.authorUserId = some userId then
    db.replyTarget c.id = some userId ∧ trim c.actorDisplayNameSnapshot ≠ "" ∧
      userId ∉ db.mentioned c.id c.body c.bodyFormat
  else db.replyTarget c.id = some userId ∨ userId ∈ db.mentioned c.id c.body c.bodyFormat

/-- How often the user is notified in the list. -/
def timesTold (notifications : List Notification) (userId : Int) : Nat :=
  (notifications.map (·.recipientUserId)).count userId

/-- A draft has notified nobody; a published comment has notified each recipient once. -/
def Told (db : Db) (c : CommentRow) : Prop :=
  if c.isDraft then db.notificationsOf c.id = []
  else ∀ userId, (Recipient db c userId → timesTold (db.notificationsOf c.id) userId = 1) ∧
    (¬Recipient db c userId → timesTold (db.notificationsOf c.id) userId = 0)

section Counting

variable {p : Publication} {userId : Int}

theorem timesTold_append (l l' : List Notification) :
    timesTold (l ++ l') userId = timesTold l userId + timesTold l' userId := by
  unfold timesTold
  rw [List.map_append, List.count_append]

theorem timesTold_create {recipientUserId : Int} {kind : NotificationKind} {title : String} :
    timesTold (createNotification p recipientUserId kind title) userId =
      if recipientUserId = userId ∧
        ¬(userId = p.actorUserId ∧ trim p.actorDisplayNameSnapshot = "") then 1 else 0 := by
  unfold createNotification timesTold
  by_cases hsame : recipientUserId = userId
  · rw [hsame]
    split <;> simp_all
  · split <;> simp [hsame]

theorem timesTold_reply :
    timesTold p.replyNotifications userId =
      if p.replyRecipient = some userId ∧ userId ∉ p.mentionTargets.map (·.1) ∧
        ¬(userId = p.actorUserId ∧ trim p.actorDisplayNameSnapshot = "") then 1 else 0 := by
  unfold Publication.replyNotifications
  cases hreply : p.replyRecipient with
  | none => simp [timesTold]
  | some recipientUserId =>
    dsimp only
    by_cases hmention : recipientUserId ∈ p.mentionTargets.map (·.1)
    · rw [if_pos (List.contains_iff_mem.mpr hmention), if_neg]
      · rfl
      · rintro ⟨hsame, hnot, -⟩
        rw [Option.some.inj hsame] at hmention
        exact hnot hmention
    · rw [if_neg (fun h => hmention (List.contains_iff_mem.mp h)), timesTold_create]
      by_cases hsame : recipientUserId = userId
      · rw [hsame] at hmention
        simp only [hsame, true_and, hmention, not_false_eq_true]
      · simp [hsame]

/-- A user who is mentioned once is notified once, unless it is the one who acts. -/
theorem timesTold_mention (hnodup : (p.mentionTargets.map (·.1)).Nodup) :
    timesTold p.mentionNotifications userId =
      if userId ∈ p.mentionTargets.map (·.1) ∧ userId ≠ p.actorUserId then 1 else 0 := by
  unfold Publication.mentionNotifications
  generalize p.mentionTargets = targets at hnodup ⊢
  induction targets with
  | nil => simp [timesTold]
  | cons target rest ih =>
    rw [List.map_cons, List.nodup_cons] at hnodup
    rw [List.flatMap_cons, timesTold_append, ih hnodup.2]
    simp only [List.map_cons, List.mem_cons]
    by_cases hsame : userId = target.1
    · subst hsame
      by_cases hactor : target.1 = p.actorUserId
      · simp [hactor, timesTold]
      · simp [hactor, hnodup.1, timesTold_create]
    · have hne : ¬target.1 = userId := fun h => hsame h.symm
      have hnone : timesTold (if target.1 = p.actorUserId then []
          else createNotification p target.1 .commentMentioned ("你在 " ++ p.itemKey ++ " 中被提及"))
          userId = 0 := by
        split
        · rfl
        · rw [timesTold_create, if_neg (fun h => hne h.1)]
      rw [hnone, Nat.zero_add]
      simp only [hsame, false_or]

theorem commentId_of_mem {n : Notification}
    (h : n ∈ p.replyNotifications ++ p.mentionNotifications) : n.commentId = some p.commentId := by
  have created : ∀ recipientUserId kind title,
      n ∈ createNotification p recipientUserId kind title → n.commentId = some p.commentId := by
    intro recipientUserId kind title hn
    unfold createNotification at hn
    split at hn
    · cases hn
    · rw [List.mem_singleton.mp hn]
  rcases List.mem_append.mp h with hmem | hmem
  · unfold Publication.replyNotifications at hmem
    split at hmem
    · cases hmem
    split at hmem
    · cases hmem
    · exact created _ _ _ hmem
  · obtain ⟨target, _, hn⟩ := List.mem_flatMap.mp hmem
    split at hn
    · cases hn
    · exact created _ _ _ hn

end Counting

/-! ## What the transactions do to a draft -/

/-- What of a comment nobody changes. -/
def CommentRow.origin (c : CommentRow) : Int × Option Int × Option Int :=
  (c.workItemId, c.authorUserId, c.parentCommentId)

structure Inv (id : Int) (db : Db) : Prop where
  users : (db.base.users.map (·.id)).Nodup
  members : (db.base.members.map fun m => (m.projectId, m.userId)).Nodup
  items : (db.base.workItems.map (·.id)).Nodup
  comments : (db.comments.map (·.id)).Nodup
  told : ∃ c, db.comment id = some c ∧ Told db c

/-- What every statement respects: a comment keeps its origin, and one that is no open draft stays
as it is. -/
structure Later (db db' : Db) : Prop where
  base : db'.base = db.base
  origin : ∀ id, (db'.comment id).map CommentRow.origin = (db.comment id).map CommentRow.origin
  ended : ∀ id c, db.comment id = some c → (c.isDraft = false ∨ c.deletedAt ≠ none) →
    db'.comment id = some c

theorem Later.refl (db : Db) : Later db db := ⟨rfl, fun _ => rfl, fun _ _ h _ => h⟩

theorem Later.trans {a b c : Db} (hab : Later a b) (hbc : Later b c) : Later a c where
  base := hbc.base.trans hab.base
  origin := fun id => (hbc.origin id).trans (hab.origin id)
  ended := fun id r hr hended => hbc.ended id r (hab.ended id r hr hended) hended

/-- What a publication has made sure of. -/
structure Prepared (db : Db) (p : Publication) : Prop where
  author : (db.comment p.commentId).bind (·.authorUserId) = some p.actorUserId
  reply : p.replyRecipient = db.replyTarget p.commentId
  mentions : p.mentionTargets.map (·.1) =
    db.mentioned p.commentId p.prepared.body p.prepared.bodyFormat

def Grants (db : Db) : Statement → Prop
  | .publish p => Prepared db p
  | _ => True

section Tables

variable {db db' : Db}

theorem Later.parts (h : Later db db') (id : Int) :
    (db'.comment id).bind (·.authorUserId) = (db.comment id).bind (·.authorUserId) ∧
      (db'.comment id).bind (·.parentCommentId) = (db.comment id).bind (·.parentCommentId) ∧
      (db'.comment id).map (·.workItemId) = (db.comment id).map (·.workItemId) := by
  have horigin := h.origin id
  cases hnew : db'.comment id with
  | none =>
    rw [hnew] at horigin
    rw [Option.map_eq_none_iff.mp horigin.symm]
    exact ⟨rfl, rfl, rfl⟩
  | some c' =>
    rw [hnew] at horigin
    obtain ⟨c, hc, hsame⟩ := Option.map_eq_some_iff.mp horigin.symm
    rw [hc]
    obtain ⟨h1, h2⟩ := Prod.mk.inj hsame
    obtain ⟨h2, h3⟩ := Prod.mk.inj h2
    exact ⟨h2.symm, h3.symm, congrArg some h1.symm⟩

theorem Later.replyTarget (h : Later db db') (id : Int) : db'.replyTarget id = db.replyTarget id := by
  unfold Db.replyTarget
  rw [(h.parts id).2.1]
  congr 1
  funext parent
  exact (h.parts parent).1

theorem Later.mentioned (h : Later db db') (id : Int) (body : String)
    (bodyFormat : CommentBodyFormat) :
    db'.mentioned id body bodyFormat = db.mentioned id body bodyFormat := by
  have hitem : ((db'.comment id).bind fun c => db'.base.workItem c.workItemId) =
      (db.comment id).bind fun c => db.base.workItem c.workItemId := by
    have hwork := (h.parts id).2.2
    rw [h.base]
    cases hnew : db'.comment id with
    | none =>
      rw [hnew] at hwork
      rw [Option.map_eq_none_iff.mp hwork.symm]
    | some c' =>
      rw [hnew] at hwork
      obtain ⟨c, hc, hsame⟩ := Option.map_eq_some_iff.mp hwork.symm
      rw [hc]
      dsimp only [Option.bind_some]
      rw [hsame]
  unfold Db.mentioned Db.mentionTargets
  rw [hitem, h.base]

theorem Later.recipient (h : Later db db') (c : CommentRow) (userId : Int) :
    Recipient db' c userId ↔ Recipient db c userId := by
  unfold Recipient
  rw [h.replyTarget, h.mentioned]

theorem Prepared.later (h : Later db db') {p : Publication} (hp : Prepared db p) : Prepared db' p :=
  ⟨(h.parts _).1.trans hp.author, hp.reply.trans (h.replyTarget _).symm,
    hp.mentions.trans (h.mentioned _ _ _).symm⟩

/-- Comments with the same notifications. -/
theorem told_of_same {c : CommentRow} (h : Later db db')
    (hsame : db'.notificationsOf c.id = db.notificationsOf c.id) (htold : Told db c) :
    Told db' c := by
  unfold Told at htold ⊢
  rw [hsame]
  split at htold
  · rename_i hdraft
    rw [if_pos hdraft]
    exact htold
  · rename_i hdraft
    rw [if_neg hdraft]
    intro userId
    rw [h.recipient]
    exact htold userId

theorem comment_id {id : Int} {c : CommentRow} (h : db.comment id = some c) : c.id = id := by
  have hid := List.find?_some h
  exact beq_iff_eq.mp hid

theorem comment_of_mem (h : (db.comments.map (·.id)).Nodup) {c : CommentRow} (hc : c ∈ db.comments) :
    db.comment c.id = some c := find?_of_mem h hc

/-- The comments behind an update of open drafts. -/
theorem later_of_update {p : CommentRow → Bool} {f : CommentRow → CommentRow}
    (hf : ∀ c, (f c).id = c.id ∧ (f c).origin = c.origin)
    (hopen : ∀ c, p c = true → c.isDraft = true ∧ c.deletedAt = none)
    (hbase : db'.base = db.base) (hcomments : db'.comments = updateWhere p f db.comments) :
    Later db db' ∧ ∀ id, db'.comment id = (db.comment id).map fun c => if p c then f c else c := by
  have hrow : ∀ id, db'.comment id = (db.comment id).map fun c => if p c then f c else c := by
    intro id
    unfold Db.comment
    rw [hcomments]
    apply find?_updateWhere
    intro r
    rw [(hf r).1]
  refine ⟨⟨hbase, ?_, ?_⟩, hrow⟩
  · intro id
    rw [hrow, Option.map_map]
    congr 1
    funext c
    simp only [Function.comp_apply]
    split
    · exact (hf c).2
    · rfl
  · intro id c hc hended
    rw [hrow, hc, Option.map_some, if_neg]
    intro hp
    obtain ⟨hdraft, hdeleted⟩ := hopen c hp
    rcases hended with hdone | hdone
    · rw [hdraft] at hdone
      cases hdone
    · exact hdone hdeleted

theorem isOpenDraft_iff {workItemId commentId : Int} {c : CommentRow} :
    Db.isOpenDraft workItemId commentId c = true ↔
      c.id = commentId ∧ c.workItemId = workItemId ∧ c.isDraft = true ∧ c.deletedAt = none := by
  unfold Db.isOpenDraft
  rw [Bool.and_eq_true, Bool.and_eq_true, Bool.and_eq_true, beq_iff_eq, beq_iff_eq,
    Option.isNone_iff_eq_none, and_assoc, and_assoc]

end Tables

/-! ## Every statement keeps the comments in order -/

section Steps

variable {id : Int} {db : Db}

theorem mentionTargets_nodup (h : Inv id db) (projectId : Int) (usernames : List String) :
    ((db.mentionTargets projectId usernames).map (·.1)).Nodup := by
  unfold Db.mentionTargets
  rw [List.map_flatMap]
  simp only [List.map_map]
  refine List.nodup_flatMap.mpr ⟨?_, ?_⟩
  · -- a user is a member of the project once
    intro u _
    have hpairs := h.members.sublist
      ((List.filter_sublist (p := fun m => m.projectId == projectId && m.userId == u.id)).map _)
    apply List.Nodup.of_map (fun userId => (projectId, userId))
    rw [List.map_map]
    have hsame : ∀ m ∈ db.base.members.filter (fun m => m.projectId == projectId && m.userId == u.id),
        (fun m : Member => (m.projectId, m.userId)) m = (projectId, u.id) := by
      intro m hm
      have hboth := (List.mem_filter.mp hm).2
      rw [Bool.and_eq_true, beq_iff_eq, beq_iff_eq] at hboth
      dsimp only
      rw [hboth.1, hboth.2]
    rw [List.map_congr_left hsame] at hpairs
    exact hpairs
  · have hdistinct := List.pairwise_map.mp
      (h.users.sublist ((List.filter_sublist
        (p := fun u => u.active && usernames.contains u.username)).map _))
    refine hdistinct.imp ?_
    intro u v hne id hu hv
    obtain ⟨_, _, rfl⟩ := List.mem_map.mp hu
    obtain ⟨_, _, hsame⟩ := List.mem_map.mp hv
    exact hne hsame.symm

/-- The tables behind a publication. -/
def published (db : Db) (p : Publication) : Db :=
  { db with
    comments := updateWhere (Db.isOpenDraft p.workItemId p.commentId) (Db.publishedRow p) db.comments
    notifications := db.notifications ++ p.replyNotifications ++ p.mentionNotifications }

theorem publish_cases (db : Db) (p : Publication) :
    (∃ e, db.publish p = (db, .error e)) ∨
      (∃ c ∈ db.comments, Db.isOpenDraft p.workItemId p.commentId c = true) ∧
        db.publish p = (published db p, .ok ()) := by
  unfold Db.publish
  split
  · exact .inl ⟨_, rfl⟩
  rename_i hany
  split
  · exact .inl ⟨_, rfl⟩
  · exact .inr ⟨List.any_eq_true.mp (not_not.mp hany), rfl⟩

/-- Queueing files changes nothing else. -/
theorem enqueueFiles_frame {now : Int} {ids : List Int} {db' : Db}
    (h : Db.enqueueFiles now ids db = .ok db') :
    db'.base = db.base ∧ db'.comments = db.comments ∧ db'.notifications = db.notifications := by
  induction ids generalizing db with
  | nil =>
    cases h
    exact ⟨rfl, rfl, rfl⟩
  | cons fileObjectId rest ih =>
    unfold Db.enqueueFiles at h
    split at h
    · exact ih h
    split at h
    · obtain ⟨hbase, hcomments, hnotifications⟩ := ih h
      exact ⟨hbase, hcomments, hnotifications⟩
    · cases h

/-- The drafts that a cancellation ends. -/
def isOwnDraft (actorUserId workItemId commentId : Int) (c : CommentRow) : Bool :=
  Db.isOpenDraft workItemId commentId c && c.authorUserId == some actorUserId

theorem isOpenDraft_of_own {actorUserId workItemId commentId : Int} {c : CommentRow}
    (h : isOwnDraft actorUserId workItemId commentId c = true) :
    Db.isOpenDraft workItemId commentId c = true := by
  unfold isOwnDraft at h
  rw [Bool.and_eq_true] at h
  exact h.1

theorem cancel_cases (db : Db) (now actorUserId workItemId commentId : Int) :
    (∃ e, db.cancel now actorUserId workItemId commentId = (db, .error e)) ∨
      (∃ c ∈ db.comments, isOwnDraft actorUserId workItemId commentId c = true) ∧
        ∃ db', db.cancel now actorUserId workItemId commentId = (db', .ok ()) ∧
          db'.base = db.base ∧ db'.notifications = db.notifications ∧
          db'.comments = updateWhere (isOwnDraft actorUserId workItemId commentId)
            ({ · with deletedAt := some now }) db.comments := by
  unfold Db.cancel
  dsimp only
  split
  · exact .inl ⟨_, rfl⟩
  rename_i hany
  split
  · rename_i db' hqueued
    obtain ⟨hbase, hcomments, hnotifications⟩ := enqueueFiles_frame hqueued
    exact .inr ⟨List.any_eq_true.mp (not_not.mp hany), db', rfl, hbase, hnotifications, hcomments⟩
  · exact .inl ⟨_, rfl⟩

theorem notificationsOf_published (db : Db) (p : Publication) (id : Int) :
    (published db p).notificationsOf id = db.notificationsOf id ++
      if id = p.commentId then p.replyNotifications ++ p.mentionNotifications else [] := by
  unfold Db.notificationsOf published
  dsimp only
  rw [List.append_assoc, List.filter_append]
  congr 1
  split
  · rename_i hsame
    rw [List.filter_eq_self]
    intro n hn
    rw [commentId_of_mem hn, hsame]
    exact beq_self_eq_true _
  · rename_i hne
    rw [List.filter_eq_nil_iff]
    intro n hn hcomment
    rw [commentId_of_mem hn, beq_iff_eq] at hcomment
    exact hne (Option.some.inj hcomment).symm

/-- Who the transaction of a publication notifies. -/
def Publication.Reaches (p : Publication) (userId : Int) : Prop :=
  if userId = p.actorUserId then p.replyRecipient = some userId ∧
    trim p.actorDisplayNameSnapshot ≠ "" ∧ userId ∉ p.mentionTargets.map (·.1)
  else p.replyRecipient = some userId ∨ userId ∈ p.mentionTargets.map (·.1)

theorem timesTold_publication {p : Publication} (hnodup : (p.mentionTargets.map (·.1)).Nodup)
    (userId : Int) :
    (p.Reaches userId →
      timesTold (p.replyNotifications ++ p.mentionNotifications) userId = 1) ∧
    (¬p.Reaches userId →
      timesTold (p.replyNotifications ++ p.mentionNotifications) userId = 0) := by
  rw [timesTold_append, timesTold_reply, timesTold_mention hnodup]
  unfold Publication.Reaches
  by_cases hactor : userId = p.actorUserId
  · rw [if_pos hactor, if_neg (fun h : _ ∧ userId ≠ p.actorUserId => h.2 hactor)]
    constructor
    · rintro ⟨hreply, hname, hmention⟩
      rw [if_pos ⟨hreply, hmention, fun h => hname h.2⟩]
    · intro hnot
      rw [if_neg]
      exact fun ⟨hreply, hmention, hname⟩ => hnot ⟨hreply, fun h => hname ⟨hactor, h⟩, hmention⟩
  · rw [if_neg hactor]
    by_cases hmention : userId ∈ p.mentionTargets.map (·.1)
    · have hreply : ¬(p.replyRecipient = some userId ∧ userId ∉ p.mentionTargets.map (·.1) ∧
          ¬(userId = p.actorUserId ∧ trim p.actorDisplayNameSnapshot = "")) :=
        fun h => h.2.1 hmention
      rw [if_neg hreply, if_pos ⟨hmention, hactor⟩]
      exact ⟨fun _ => rfl, fun hnot => absurd (.inr hmention) hnot⟩
    · rw [if_neg (fun h : _ ∧ userId ≠ p.actorUserId => hmention h.1)]
      constructor
      · rintro (hreply | h)
        · rw [if_pos ⟨hreply, hmention, fun h => hactor h.1⟩]
        · exact absurd h hmention
      · intro hnot
        rw [if_neg (fun h => hnot (.inl h.1))]

theorem mentioned_nodup (h : Inv id db) (commentId : Int) (body : String)
    (bodyFormat : CommentBodyFormat) : (db.mentioned commentId body bodyFormat).Nodup := by
  unfold Db.mentioned
  split
  · exact mentionTargets_nodup h _ _
  · exact List.nodup_nil

/-- The draft and its publication. -/
theorem recipient_publishedRow {p : Publication} {c : CommentRow} (hc : db.comment p.commentId = some c)
    (hp : Prepared db p) (userId : Int) :
    Recipient db (Db.publishedRow p c) userId ↔ p.Reaches userId := by
  have hauthor : c.authorUserId = some p.actorUserId := by
    have := hp.author
    rw [hc] at this
    exact this
  have hid : (Db.publishedRow p c).id = p.commentId := (comment_id hc : c.id = p.commentId)
  have hactor : (Db.publishedRow p c).authorUserId = some userId ↔ userId = p.actorUserId := by
    change c.authorUserId = some userId ↔ _
    rw [hauthor]
    exact ⟨fun h => (Option.some.inj h).symm, fun h => by rw [h]⟩
  unfold Recipient Publication.Reaches
  rw [hid, hp.reply, hp.mentions]
  by_cases hsame : userId = p.actorUserId
  · rw [if_pos (hactor.mpr hsame), if_pos hsame]
    rfl
  · rw [if_neg (fun h => hsame (hactor.mp h)), if_neg hsame]
    rfl

/-- A statement that keeps both. -/
structure Kept (id : Int) (db db' : Db) : Prop where
  inv : Inv id db'
  later : Later db db'

theorem Inv.kept (h : Inv id db) : Kept id db db := ⟨h, Later.refl db⟩

/-- An update of open drafts, where the comment is told of behind it. -/
theorem update_keeps (h : Inv id db) {db' : Db} {p : CommentRow → Bool} {f : CommentRow → CommentRow}
    (hf : ∀ c, (f c).id = c.id ∧ (f c).origin = c.origin)
    (hopen : ∀ c, p c = true → c.isDraft = true ∧ c.deletedAt = none)
    (hbase : db'.base = db.base) (hcomments : db'.comments = updateWhere p f db.comments)
    (htold : ∀ c, Later db db' → db.comment id = some c → Told db c →
      Told db' (if p c then f c else c)) :
    Kept id db db' := by
  obtain ⟨hlater, hrow⟩ := later_of_update hf hopen hbase hcomments
  refine ⟨⟨?_, ?_, ?_, ?_, ?_⟩, hlater⟩
  · rw [hbase]
    exact h.users
  · rw [hbase]
    exact h.members
  · rw [hbase]
    exact h.items
  · rw [hcomments, map_updateWhere (fun c : CommentRow => c.id) fun c => (hf c).1]
    exact h.comments
  · obtain ⟨c, hc, htold'⟩ := h.told
    exact ⟨_, by rw [hrow, hc, Option.map_some], htold c hlater hc htold'⟩

theorem published_keeps (h : Inv id db) {p : Publication} (hp : Prepared db p)
    (hopen : ∃ c ∈ db.comments, Db.isOpenDraft p.workItemId p.commentId c = true) :
    Kept id db (published db p) := by
  obtain ⟨draft, hdraft, hisOpen⟩ := hopen
  have hopened : db.comment p.commentId = some draft := by
    rw [← (isOpenDraft_iff.mp hisOpen).1]
    exact comment_of_mem h.comments hdraft
  have htargets : (p.mentionTargets.map (·.1)).Nodup := by
    rw [hp.mentions]
    exact mentioned_nodup h _ _ _
  refine update_keeps h (p := Db.isOpenDraft p.workItemId p.commentId) (f := Db.publishedRow p)
    (fun _ => ⟨rfl, rfl⟩) (fun c hc => (isOpenDraft_iff.mp hc).2.2) rfl rfl ?_
  intro c hlater hc htold
  split
  · -- the draft had notified nobody
    rename_i hthis
    obtain ⟨hid, -, hisDraft, -⟩ := isOpenDraft_iff.mp hthis
    have hcomment : db.comment p.commentId = some c := by
      rw [← hid, comment_id hc]
      exact hc
    unfold Told at htold ⊢
    rw [if_pos hisDraft] at htold
    rw [if_neg (show ¬(Db.publishedRow p c).isDraft = true from Bool.false_ne_true)]
    intro userId
    rw [hlater.recipient, recipient_publishedRow hcomment hp, notificationsOf_published,
      show (Db.publishedRow p c).id = c.id from rfl, htold, if_pos hid, List.nil_append]
    exact timesTold_publication htargets userId
  · rename_i hthis
    refine told_of_same hlater ?_ htold
    have hne : ¬c.id = p.commentId := by
      intro hsame
      have hcomment : db.comment p.commentId = some c := by
        rw [← hsame, comment_id hc]
        exact hc
      rw [hopened] at hcomment
      obtain rfl := Option.some.inj hcomment
      exact hthis hisOpen
    rw [notificationsOf_published, if_neg hne, List.append_nil]

theorem publish_keeps (h : Inv id db) {p : Publication} (hp : Prepared db p) :
    Kept id db (db.publish p).1 := by
  rcases publish_cases db p with ⟨e, heq⟩ | ⟨hopen, heq⟩
  · rw [heq]
    exact h.kept
  · rw [heq]
    exact published_keeps h hp hopen

theorem cancel_keeps (h : Inv id db) (now actorUserId workItemId commentId : Int) :
    Kept id db (db.cancel now actorUserId workItemId commentId).1 := by
  rcases cancel_cases db now actorUserId workItemId commentId with
    ⟨e, heq⟩ | ⟨-, db', heq, hbase, hnotifications, hcomments⟩
  · rw [heq]
    exact h.kept
  rw [heq]
  refine update_keeps h (p := isOwnDraft actorUserId workItemId commentId)
    (f := ({ · with deletedAt := some now })) (fun _ => ⟨rfl, rfl⟩) ?_ hbase hcomments ?_
  · intro c hc
    exact (isOpenDraft_iff.mp (isOpenDraft_of_own hc)).2.2
  · intro c hlater hc htold
    have hsame : Told db' c := by
      refine told_of_same hlater ?_ htold
      unfold Db.notificationsOf
      rw [hnotifications]
    split
    · exact hsame
    · exact hsame

theorem perform_keeps (m : Moment) (st : Statement) (h : Inv id db) (hst : Grants db st) :
    Kept id db (perform m st db).1 := by
  unfold perform
  split
  · exact h.kept
  cases st with
  | publish p => exact publish_keeps h hst
  | cancel actorUserId workItemId commentId => exact cancel_keeps h _ _ _ _
  | _ => exact h.kept

end Steps

/-- Publications and cancellations beside each other. -/
def drafting (id : Int) : Protocol Statement Statement.Answer AppError Db Moment where
  perform := perform
  R := Later
  I := Inv id
  C := fun _ _ => True
  G := Grants
  refl := Later.refl
  trans := fun _ _ _ => Later.trans
  keeps := by
    intro st db m h _ hst
    obtain ⟨hinv, hlater⟩ := perform_keeps m st h hst
    exact ⟨hinv, hlater⟩

section Calls

variable {id : Int} {db : Db}

/-- What a call reads. -/
theorem query_reads {s : Statement} {Q : s.Answer → Db → Prop} (hst : ∀ b, Grants b s)
    (h : ∀ b, Inv id b → ∀ now a, execute now b s = (b, .ok a) → ∀ c, Later b c → Q a c)
    (hread : ∀ now b, (execute now b s).1 = b) : Follows (drafting id) Q (query s) db := by
  refine @follows_make _ _ _ _ _ (drafting id) db s _ ?_
  intro b m _ hi _
  refine ⟨hst b, ?_⟩
  intro a ha c hc
  change (perform m s b).2 = .ok a at ha
  change Later (perform m s b).1 c at hc
  unfold perform at ha hc
  cases hfault : m.fault with
  | some e =>
    rw [hfault] at ha
    cases ha
  | none =>
    rw [hfault] at ha hc
    dsimp only at ha hc
    rw [hread] at hc
    exact h b hi m.now a (Prod.ext (hread m.now b) ha) c hc

theorem getItem_follows (itemKey : String) :
    Follows (drafting id) (fun row b => b.base.workItem row.item.id = some row.item)
      (getItem itemKey) db := by
  refine follows_bind (Q := fun row b => ∀ r, row = some r →
    b.base.workItem r.item.id = some r.item)
    (query_reads (s := .item itemKey) (fun _ => trivial) ?_ fun _ _ => rfl) ?_
  · intro b hb now row hrow c hc r hr
    obtain rfl : b.base.item itemKey = row := Except.ok.inj (Prod.mk.inj hrow).2
    obtain ⟨hany, -⟩ := Option.filter_eq_some_iff.mp hr
    obtain ⟨wi, hwi, hitem⟩ := Option.bind_eq_some_iff.mp hany
    obtain ⟨p, -, rfl⟩ := Option.map_eq_some_iff.mp hitem
    rw [hc.base]
    exact workItem_of_mem hb.items (List.mem_of_find?_eq_some hwi)
  · intro row b _ hrow
    exact follows_okOr fun r hr c hc => by rw [hc.base]; exact hrow r hr

/-- What a call knows of a comment from its summary. -/
def Seen (workItemId commentId : Int) (summary : WorkItemCommentSummary) (db : Db) : Prop :=
  (db.comment commentId).map CommentRow.origin =
    some (workItemId, summary.authorUserId, summary.parentCommentId)

theorem Seen.later {workItemId commentId : Int} {summary : WorkItemCommentSummary} {b c : Db}
    (h : Seen workItemId commentId summary b) (hc : Later b c) :
    Seen workItemId commentId summary c := (hc.origin commentId).trans h

theorem getComment_follows (workItemId commentId : Int) (includeDrafts : Bool) :
    Follows (drafting id) (Seen workItemId commentId)
      (getComment workItemId commentId includeDrafts) db := by
  refine follows_bind (Q := fun summary b => ∀ r, summary = some r → Seen workItemId commentId r b)
    (query_reads (s := .comment workItemId commentId includeDrafts) (fun _ => trivial) ?_
      fun _ _ => rfl) ?_
  · intro b hb now summary hsummary c hc r hr
    obtain rfl : b.visibleComment workItemId commentId includeDrafts = summary :=
      Except.ok.inj (Prod.mk.inj hsummary).2
    obtain ⟨row, hrow, rfl⟩ := Option.map_eq_some_iff.mp hr
    have hwhere := List.find?_some hrow
    rw [Bool.and_eq_true, Bool.and_eq_true, Bool.and_eq_true, beq_iff_eq, beq_iff_eq] at hwhere
    obtain ⟨⟨⟨hid, hwork⟩, -⟩, -⟩ := hwhere
    apply Seen.later _ hc
    unfold Seen
    rw [← hid, comment_of_mem hb.comments (List.mem_of_find?_eq_some hrow), ← hwork]
    rfl
  · intro summary b _ hsummary
    exact follows_okOr fun r hr c hc => (hsummary r hr).later hc

theorem replyRecipient_follows (workItemId : Int) (parentCommentId : Option Int) :
    Follows (drafting id) (fun reply b => reply = parentCommentId.bind fun parent =>
        (b.comment parent).bind (·.authorUserId))
      (replyRecipient workItemId parentCommentId) db := by
  cases parentCommentId with
  | none => exact follows_done fun _ _ => rfl
  | some parentCommentId =>
    refine follows_bind (getComment_follows _ _ _) ?_
    intro parent b _ hparent
    refine follows_bind (Q := fun _ => Seen workItemId parentCommentId parent)
      (follows_rejectIf fun _ _ hc => hparent.later hc) ?_
    intro _ c _ hparent
    refine follows_done fun d hd => ?_
    obtain ⟨row, hrow, horigin⟩ := Option.map_eq_some_iff.mp (hparent.later hd)
    rw [Option.bind_some, hrow]
    exact (congrArg (·.2.1) horigin).symm

theorem resolveProjectMentionTargets_follows (projectId : Int) (usernames : List String) :
    Follows (drafting id) (fun targets b => targets = b.mentionTargets projectId usernames)
      (resolveProjectMentionTargets projectId usernames) db := by
  have kept : ∀ {targets : List (Int × String)} {b c : Db}, Later b c →
      targets = b.mentionTargets projectId usernames →
      targets = c.mentionTargets projectId usernames := by
    intro targets b c hc h
    rw [h]
    unfold Db.mentionTargets
    rw [hc.base]
  unfold resolveProjectMentionTargets
  split
  · rename_i hnone
    refine follows_done fun b _ => ?_
    unfold Db.mentionTargets
    rw [hnone, List.filter_eq_nil_iff.mpr, List.flatMap_nil]
    intro u _
    simp
  · refine follows_bind (Q := fun targets b => targets = b.mentionTargets projectId usernames)
      (query_reads (fun _ => trivial) ?_ fun _ _ => rfl) ?_
    · intro b _ now targets htargets c hc
      exact kept hc (Except.ok.inj (Prod.mk.inj htargets).2).symm
    · intro targets b _ htargets
      refine follows_bind (Q := fun _ b => targets = b.mentionTargets projectId usernames)
        (follows_rejectIf fun _ _ hc => kept hc htargets) ?_
      intro _ c _ htargets
      exact follows_done fun d hd => kept hd htargets

/-- A statement that nothing has to be made sure of for, or that it was. -/
theorem query_follows {s : Statement} (h : ∀ b, Later db b → Grants b s) :
    Follows (drafting id) (fun _ _ => True) (query s) db := by
  refine @follows_make _ _ _ _ _ (drafting id) db s _ ?_
  intro b m hb _ _
  exact ⟨h b hb, fun _ _ _ _ => trivial⟩

theorem ensureReferences_follows (commentId : Int) (references : List (Int × Int)) :
    Follows (drafting id) (fun _ _ => True) (ensureReferences commentId references) db := by
  induction references generalizing db with
  | nil => exact follows_done fun _ _ => trivial
  | cons reference rest ih =>
    unfold ensureReferences
    refine follows_bind (Q := fun _ _ => True) (follows_rejectIf fun _ _ _ => trivial) ?_
    intro _ _ _ _
    refine follows_bind (query_follows fun _ _ => trivial) ?_
    intro _ _ _ _
    refine follows_bind (Q := fun _ _ => True) (follows_okOr fun _ _ _ _ => trivial) ?_
    intro _ _ _ _
    refine follows_bind (Q := fun _ _ => True) (follows_rejectIf fun _ _ _ => trivial) ?_
    intro _ _ _ _
    exact ih

theorem ensureOwnDraft_author {actorUserId : Int} {draft : WorkItemCommentSummary}
    {flow foreign : String} (h : ensureOwnDraft actorUserId draft flow foreign = .ok ()) :
    draft.authorUserId = some actorUserId := by
  unfold ensureOwnDraft at h
  obtain ⟨_, _, h⟩ := bind_eq_ok.mp h
  obtain ⟨_, _, h⟩ := bind_eq_ok.mp h
  exact not_not.mp (rejectIf_eq_ok.mp h)

/-- What the publication has made sure of when its transaction begins. -/
theorem prepared_of_seen {actorUserId commentId : Int} {itemKey snapshot : String}
    {prepared : PreparedWorkItemCommentBody} {row : ItemRow} {draft : WorkItemCommentSummary}
    {reply : Option Int} {usernames : List String} {targets : List (Int × String)}
    (hitem : db.base.workItem row.item.id = some row.item)
    (hdraft : Seen row.item.id commentId draft db)
    (hauthor : draft.authorUserId = some actorUserId)
    (hreply : reply = draft.parentCommentId.bind fun parent =>
      (db.comment parent).bind (·.authorUserId))
    (husernames : extractCommentMentionUsernames prepared.body prepared.bodyFormat = .ok usernames)
    (htargets : targets = db.mentionTargets row.item.projectId usernames) :
    Prepared db
      { actorUserId, itemKey, workItemId := row.item.id, commentId, prepared
        actorDisplayNameSnapshot := snapshot, replyRecipient := reply, mentionTargets := targets } := by
  obtain ⟨c, hc, horigin⟩ := Option.map_eq_some_iff.mp hdraft
  obtain ⟨hwork, horigin⟩ := Prod.mk.inj horigin
  obtain ⟨hcAuthor, hcParent⟩ := Prod.mk.inj horigin
  refine ⟨?_, ?_, ?_⟩
  · dsimp only
    rw [hc, Option.bind_some, hcAuthor, hauthor]
  · dsimp only
    unfold Db.replyTarget
    rw [hc, Option.bind_some, hcParent, hreply]
  · dsimp only
    unfold Db.mentioned
    rw [hc, Option.bind_some, hwork, hitem, husernames, htargets]

theorem applyPublish_follows (actorUserId : Int) (itemKey : String) (commentId : Int)
    (prepared : PreparedWorkItemCommentBody) (snapshot : String) {row : ItemRow}
    {draft : WorkItemCommentSummary} (hitem : db.base.workItem row.item.id = some row.item)
    (hdraft : Seen row.item.id commentId draft db) :
    Follows (drafting id) (fun _ _ => True)
      (applyPublish actorUserId itemKey commentId prepared snapshot row draft) db := by
  unfold applyPublish ensureCommentBodyAttachmentReferences
  refine follows_bind (Q := fun _ _ => draft.authorUserId = some actorUserId)
    (follows_check fun _ h _ _ => ensureOwnDraft_author h) ?_
  intro _ b hb hauthor
  refine follows_bind (Q := fun _ _ => True) ?_ ?_
  · refine follows_bind (Q := fun _ _ => True) (follows_check fun _ _ _ _ => trivial) ?_
    intro references _ _ _
    exact ensureReferences_follows commentId references
  intro _ c hc _
  refine follows_bind (replyRecipient_follows row.item.id draft.parentCommentId) ?_
  intro reply d hd hreply
  refine follows_bind (Q := fun usernames _ =>
      extractCommentMentionUsernames prepared.body prepared.bodyFormat = .ok usernames)
    (follows_check fun _ h _ _ => h) ?_
  intro usernames e he husernames
  refine follows_bind (resolveProjectMentionTargets_follows row.item.projectId usernames) ?_
  intro targets f hf htargets
  have hlater : Later db f := hb.trans (hc.trans (hd.trans (he.trans hf)))
  have hready : Prepared f
      { actorUserId, itemKey, workItemId := row.item.id, commentId, prepared
        actorDisplayNameSnapshot := snapshot, replyRecipient := reply, mentionTargets := targets } := by
    refine prepared_of_seen ?_ (hdraft.later hlater) hauthor ?_ husernames htargets
    · rw [hlater.base]
      exact hitem
    · rw [hreply]
      congr 1
      funext parent
      exact ((he.trans hf).parts parent).1.symm
  refine follows_bind (@query_follows id f (.publish _) fun g hg => hready.later hg) ?_
  intro _ g _ _
  refine follows_bind (query_follows fun _ _ => trivial) ?_
  exact fun _ _ _ _ => follows_okOr fun _ _ _ _ => trivial

theorem start_follows (C : Cleaner) (request : Request) :
    Follows (drafting id) (fun _ _ => True) (start C request) db := by
  cases request with
  | publish actorUserId itemKey commentId body bodyFormat actorDisplayNameSnapshot =>
    refine follows_bind (Q := fun _ _ => True) (follows_check fun _ _ _ _ => trivial) ?_
    intro prepared _ _ _
    refine follows_bind (getItem_follows itemKey) ?_
    intro row b _ hitem
    refine follows_bind (Q := fun _ _ => True) (follows_check fun _ _ _ _ => trivial) ?_
    intro _ c hc _
    refine follows_bind (getComment_follows _ _ _) ?_
    intro draft d hd hdraft
    refine applyPublish_follows _ _ _ _ _ ?_ hdraft
    rw [(hc.trans hd).base]
    exact hitem
  | cancel actorUserId itemKey commentId =>
    refine follows_bind (getItem_follows itemKey) ?_
    intro row _ _ _
    refine follows_bind (Q := fun _ _ => True) (follows_check fun _ _ _ _ => trivial) ?_
    intro _ _ _ _
    refine follows_bind (getComment_follows _ _ _) ?_
    intro draft _ _ _
    refine follows_bind (Q := fun _ _ => True) (follows_check fun _ _ _ _ => trivial) ?_
    intro _ d _ _
    refine follows_bind (@query_follows id d (.cancel _ _ _) fun _ _ => trivial) ?_
    exact fun _ _ _ _ => follows_done fun _ _ => trivial

end Calls

/-! ## The end of a draft -/

/-- The statements that end the draft. -/
def Ends (id : Int) : Statement → Prop
  | .publish p => p.commentId = id
  | .cancel _ _ commentId => commentId = id
  | _ => False

/-- The statement that the call cannot return without. -/
def Request.EndsBy (request : Request) (st : Statement) : Prop :=
  match request with
  | .publish _ _ commentId _ _ _ => ∃ p, st = .publish p ∧ p.commentId = commentId
  | .cancel _ _ commentId => ∃ actorUserId workItemId, st = .cancel actorUserId workItemId commentId

/-- How the statement leaves the draft that it ended. -/
def Ended (st : Statement) (c : CommentRow) : Prop :=
  match st with
  | .publish _ => c.isDraft = false
  | _ => c.isDraft = true ∧ c.deletedAt ≠ none

theorem Ended.done {st : Statement} {c : CommentRow} (h : Ended st c) :
    c.isDraft = false ∨ c.deletedAt ≠ none := by
  cases st with
  | publish p => exact .inl h
  | _ => exact .inr h.2

section Ending

variable {id : Int} {db : Db} {m : Moment} {st : Statement}

theorem start_passes (C : Cleaner) (request : Request) :
    Passes request.EndsBy (start C request) := by
  cases request with
  | publish actorUserId itemKey commentId body bodyFormat actorDisplayNameSnapshot =>
    refine passes_then fun prepared => passes_then fun row => passes_then fun _ =>
      passes_then fun draft => ?_
    refine passes_then fun _ => passes_then fun _ => passes_then fun reply =>
      passes_then fun usernames => passes_then fun targets => ?_
    exact passes_first ⟨.inl ⟨_, rfl, rfl⟩⟩
  | cancel actorUserId itemKey commentId =>
    refine passes_then fun row => passes_then fun _ => passes_then fun draft =>
      passes_then fun _ => ?_
    exact passes_first ⟨.inl ⟨_, _, rfl⟩⟩

theorem Request.ends_of_endsBy {request : Request} (h : request.EndsBy st) :
    Ends request.commentId st := by
  cases request with
  | publish actorUserId itemKey commentId body bodyFormat actorDisplayNameSnapshot =>
    obtain ⟨p, rfl, hid⟩ := h
    exact hid
  | cancel actorUserId itemKey commentId =>
    obtain ⟨_, _, rfl⟩ := h
    rfl

/-- A statement that fails leaves everything as it was. -/
theorem perform_error {e : AppError} (h : (perform m st db).2 = .error e) :
    (perform m st db).1 = db := by
  unfold perform at h ⊢
  cases hfault : m.fault with
  | some _ => rfl
  | none =>
    rw [hfault] at h
    dsimp only at h ⊢
    cases st with
    | publish p =>
      rcases publish_cases db p with ⟨e', heq⟩ | ⟨-, heq⟩
      · exact congrArg (·.1) heq
      · rw [show execute m.now db (.publish p) = _ from heq] at h
        cases h
    | cancel actorUserId workItemId commentId =>
      rcases cancel_cases db m.now actorUserId workItemId commentId with
        ⟨e', heq⟩ | ⟨-, db', heq, -⟩
      · exact congrArg (·.1) heq
      · rw [show execute m.now db (.cancel actorUserId workItemId commentId) = _ from heq] at h
        cases h
    | _ => rfl

theorem perform_ok {a : st.Answer} (h : (perform m st db).2 = .ok a) :
    perform m st db = execute m.now db st := by
  unfold perform at h ⊢
  cases hfault : m.fault with
  | some e =>
    rw [hfault] at h
    cases h
  | none => rfl

theorem published_comment (db : Db) (p : Publication) (id : Int) :
    (published db p).comment id = (db.comment id).map fun c =>
      if Db.isOpenDraft p.workItemId p.commentId c then Db.publishedRow p c else c := by
  unfold Db.comment published
  apply find?_updateWhere
  exact fun _ => rfl

theorem cancelled_comment {db' : Db} {now actorUserId workItemId commentId : Int}
    (h : db'.comments = updateWhere (isOwnDraft actorUserId workItemId commentId)
      ({ · with deletedAt := some now }) db.comments) (id : Int) :
    db'.comment id = (db.comment id).map fun c =>
      if isOwnDraft actorUserId workItemId commentId c then { c with deletedAt := some now } else c := by
  unfold Db.comment
  rw [h]
  apply find?_updateWhere
  exact fun _ => rfl

/-- A statement that ends the draft finds it open. -/
theorem perform_ends (h : Inv id db) (hends : Ends id st) {a : st.Answer}
    (hok : (perform m st db).2 = .ok a) :
    (∃ c, db.comment id = some c ∧ c.isDraft = true ∧ c.deletedAt = none) ∧
      ∃ c', (perform m st db).1.comment id = some c' ∧ Ended st c' := by
  have heq := perform_ok hok
  rw [heq] at hok ⊢
  cases st with
  | publish p =>
    obtain rfl : p.commentId = id := hends
    rcases publish_cases db p with ⟨e, heq⟩ | ⟨⟨c, hc, hopen⟩, heq⟩
    · rw [show execute m.now db (.publish p) = _ from heq] at hok
      cases hok
    obtain ⟨hid, -, hdraft, hdeleted⟩ := isOpenDraft_iff.mp hopen
    have hrow : db.comment p.commentId = some c := by
      rw [← hid]
      exact comment_of_mem h.comments hc
    refine ⟨⟨c, hrow, hdraft, hdeleted⟩, Db.publishedRow p c, ?_, rfl⟩
    rw [show execute m.now db (.publish p) = _ from heq, published_comment, hrow, Option.map_some,
      if_pos hopen]
  | cancel actorUserId workItemId commentId =>
    obtain rfl : commentId = id := hends
    rcases cancel_cases db m.now actorUserId workItemId commentId with
      ⟨e, heq⟩ | ⟨⟨c, hc, hown⟩, db', heq, -, -, hcomments⟩
    · rw [show execute m.now db (.cancel actorUserId workItemId commentId) = _ from heq] at hok
      cases hok
    obtain ⟨hid, -, hdraft, hdeleted⟩ := isOpenDraft_iff.mp (isOpenDraft_of_own hown)
    have hrow : db.comment commentId = some c := by
      rw [← hid]
      exact comment_of_mem h.comments hc
    refine ⟨⟨c, hrow, hdraft, hdeleted⟩, { c with deletedAt := some m.now }, ?_, hdraft, by simp⟩
    rw [show execute m.now db (.cancel actorUserId workItemId commentId) = _ from heq,
      cancelled_comment hcomments, hrow, Option.map_some, if_pos hown]
  | _ => exact False.elim hends

/-- Only a publication makes a draft a comment. -/
theorem perform_publishes {c c' : CommentRow} (hc : db.comment id = some c) (hdraft : c.isDraft = true)
    (hc' : (perform m st db).1.comment id = some c') (hpublished : c'.isDraft = false) :
    Ends id st ∧ (∃ p, st = .publish p) ∧ ∃ a, (perform m st db).2 = .ok a := by
  have changed : ∀ {d : CommentRow}, db.comment id = some d → d.isDraft = false → False := by
    intro d hd hnot
    rw [hc] at hd
    obtain rfl := Option.some.inj hd
    rw [hdraft] at hnot
    cases hnot
  cases hanswer : (perform m st db).2 with
  | error e =>
    rw [perform_error hanswer] at hc'
    exact absurd hpublished fun h => changed hc' h
  | ok a =>
    have heq := perform_ok hanswer
    rw [heq] at hc' hanswer
    cases st with
    | publish p =>
      refine ⟨?_, ⟨p, rfl⟩, a, rfl⟩
      rcases publish_cases db p with ⟨e, heq⟩ | ⟨-, heq⟩
      · rw [show execute m.now db (.publish p) = _ from heq] at hanswer
        cases hanswer
      rw [show execute m.now db (.publish p) = _ from heq, published_comment, hc, Option.map_some]
        at hc'
      split at hc'
      · rename_i hopen
        exact (isOpenDraft_iff.mp hopen).1.symm.trans (comment_id hc)
      · exact absurd hpublished fun h => changed (hc.trans hc') h
    | cancel actorUserId workItemId commentId =>
      rcases cancel_cases db m.now actorUserId workItemId commentId with
        ⟨e, heq⟩ | ⟨-, db', heq, -, -, hcomments⟩
      · rw [show execute m.now db (.cancel actorUserId workItemId commentId) = _ from heq] at hanswer
        cases hanswer
      rw [show execute m.now db (.cancel actorUserId workItemId commentId) = _ from heq,
        cancelled_comment hcomments, hc, Option.map_some] at hc'
      -- a cancelled draft stays a draft
      have hsame : c'.isDraft = c.isDraft := by
        rw [← Option.some.inj hc']
        split
        · rfl
        · rfl
      rw [hsame, hdraft] at hpublished
      cases hpublished
    | _ => exact absurd hpublished fun h => changed hc' h

end Ending

/-- What the run so far has done to the draft. -/
structure Closed (id : Int) (tr : List (Entry Server (Turn Request Moment) Unit)) (s : Server) :
    Prop where
  ended : ∀ x ∈ tr, ∀ i st, Ends id st → Made perform i st x →
    ∃ c, s.db.comment id = some c ∧ Ended st c
  once : ∀ x ∈ tr, ∀ y ∈ tr, ∀ i j st st', Ends id st → Ends id st' → Made perform i st x →
    Made perform j st' y → i = j
  published : ∀ c, s.db.comment id = some c → c.isDraft = false →
    ∃ x ∈ tr, ∃ i p, p.commentId = id ∧ Made perform i (.publish p) x

theorem made_iff {i j : Nat} {st st' : Statement} {m : Moment} {s : Server} {o : Unit}
    (hnext : nextStatement s i = some st') :
    Made perform j st ⟨s, (.resume i m : Turn Request Moment), o⟩ ↔
      j = i ∧ st = st' ∧ ∃ a, (perform m st s.db).2 = .ok a := by
  constructor
  · rintro ⟨m', a, hevent, hst, hok⟩
    cases hevent
    rw [hnext] at hst
    exact ⟨rfl, (Option.some.inj hst).symm, a, hok⟩
  · rintro ⟨rfl, rfl, a, hok⟩
    exact ⟨m, a, rfl, hnext, hok⟩

/-- One more statement. -/
theorem closed_resume {id : Int} {tr : List (Entry Server (Turn Request Moment) Unit)}
    {s u : Server} {i : Nat} {m : Moment} {o : Unit} {st : Statement} (h : Closed id tr s)
    (hinv : Inv id s.db) (hst : Grants s.db st) (hnext : nextStatement s i = some st)
    (hdb : u.db = (perform m st s.db).1) : Closed id (tr ++ [⟨s, .resume i m, o⟩]) u := by
  have hlater : Later s.db u.db := by
    rw [hdb]
    exact (perform_keeps m st hinv hst).later
  -- the draft was open when this statement ended it, so none had ended it before
  have first : Ends id st → (∃ a, (perform m st s.db).2 = .ok a) →
      ∀ x ∈ tr, ∀ j st', Ends id st' → ¬Made perform j st' x := by
    rintro hends ⟨a, hok⟩ x hx j st' hends' hmade
    obtain ⟨⟨c, hc, hdraft, hdeleted⟩, -⟩ := perform_ends hinv hends hok
    obtain ⟨c', hc', hended⟩ := h.ended x hx j st' hends' hmade
    rw [hc] at hc'
    obtain rfl := Option.some.inj hc'
    rcases hended.done with hdone | hdone
    · rw [hdraft] at hdone
      cases hdone
    · exact hdone hdeleted
  refine ⟨?_, ?_, ?_⟩
  · intro x hx j st' hends hmade
    rcases List.mem_append.mp hx with hmem | hmem
    · obtain ⟨c, hc, hended⟩ := h.ended x hmem j st' hends hmade
      exact ⟨c, hlater.ended id c hc hended.done, hended⟩
    · obtain rfl := List.mem_singleton.mp hmem
      obtain ⟨-, rfl, a, hok⟩ := (made_iff hnext).mp hmade
      rw [hdb]
      exact (perform_ends hinv hends hok).2
  · intro x hx y hy j k st₁ st₂ hends₁ hends₂ hmade₁ hmade₂
    rcases List.mem_append.mp hx with hmemx | hmemx
    · rcases List.mem_append.mp hy with hmemy | hmemy
      · exact h.once x hmemx y hmemy j k st₁ st₂ hends₁ hends₂ hmade₁ hmade₂
      · obtain rfl := List.mem_singleton.mp hmemy
        obtain ⟨-, rfl, hok⟩ := (made_iff hnext).mp hmade₂
        exact absurd hmade₁ (first hends₂ hok x hmemx j st₁ hends₁)
    · obtain rfl := List.mem_singleton.mp hmemx
      obtain ⟨rfl, rfl, hok⟩ := (made_iff hnext).mp hmade₁
      rcases List.mem_append.mp hy with hmemy | hmemy
      · exact absurd hmade₂ (first hends₁ hok y hmemy k st₂ hends₂)
      · obtain rfl := List.mem_singleton.mp hmemy
        exact ((made_iff hnext).mp hmade₂).1.symm
  · intro c' hc' hpublished
    obtain ⟨c, hc, -⟩ := hinv.told
    by_cases hdraft : c.isDraft = true
    · rw [hdb] at hc'
      obtain ⟨hends, ⟨p, rfl⟩, hok⟩ := perform_publishes hc hdraft hc' hpublished
      exact ⟨_, List.mem_append_right _ List.mem_cons_self, i, p, hends,
        (made_iff hnext).mpr ⟨rfl, rfl, hok⟩⟩
    · obtain ⟨x, hx, hmade⟩ := h.published c hc (Bool.not_eq_true _ ▸ hdraft)
      exact ⟨x, List.mem_append_left _ hx, hmade⟩

theorem closed_begin {id : Int} {tr : List (Entry Server (Turn Request Moment) Unit)}
    {s u : Server} {request : Request} {o : Unit} (h : Closed id tr s) (hdb : u.db = s.db) :
    Closed id (tr ++ [⟨s, .begin request, o⟩]) u := by
  have old : ∀ x ∈ tr ++ [⟨s, .begin request, o⟩], ∀ j st, Made perform j st x → x ∈ tr := by
    intro x hx j st hmade
    rcases List.mem_append.mp hx with hmem | hmem
    · exact hmem
    · obtain rfl := List.mem_singleton.mp hmem
      obtain ⟨m, a, hevent, -⟩ := hmade
      cases hevent
  refine ⟨?_, ?_, ?_⟩
  · intro x hx j st hends hmade
    rw [hdb]
    exact h.ended x (old x hx j st hmade) j st hends hmade
  · intro x hx y hy j k st₁ st₂ hends₁ hends₂ hmade₁ hmade₂
    exact h.once x (old x hx j st₁ hmade₁) y (old y hy k st₂ hmade₂) j k st₁ st₂ hends₁ hends₂
      hmade₁ hmade₂
  · intro c hc hpublished
    rw [hdb] at hc
    obtain ⟨x, hx, hmade⟩ := h.published c hc hpublished
    exact ⟨x, List.mem_append_left _ hx, hmade⟩

/-- A draft that has notified nobody, in tables with their keys. -/
structure Open (id : Int) (db : Db) : Prop where
  users : (db.base.users.map (·.id)).Nodup
  members : (db.base.members.map fun m => (m.projectId, m.userId)).Nodup
  items : (db.base.workItems.map (·.id)).Nodup
  comments : (db.comments.map (·.id)).Nodup
  draft : ∃ c, db.comment id = some c ∧ c.isDraft = true ∧ c.deletedAt = none
  silent : db.notificationsOf id = []

theorem Open.inv {id : Int} {db : Db} (h : Open id db) : Inv id db := by
  refine ⟨h.users, h.members, h.items, h.comments, ?_⟩
  obtain ⟨c, hc, hdraft, -⟩ := h.draft
  refine ⟨c, hc, ?_⟩
  unfold Told
  rw [if_pos hdraft, comment_id hc]
  exact h.silent

theorem closed_of_run {C : Cleaner} {id : Int} {db : Db} (h : Open id db)
    {tr : List (Entry Server (Turn Request Moment) Unit)} {s : Server}
    (hrun : Run (serve perform (start C)) { db := db, calls := [] } tr s) :
    Inv id s.db ∧ Closed id tr s := by
  obtain ⟨hinv, hsteps⟩ := serve_follows (D := drafting id) h.inv
    (fun request d => @start_follows id d C request) hrun (fun x _ => by
      cases x.event with
      | begin c => trivial
      | resume i m => exact fun _ _ => trivial)
  refine ⟨hinv, hrun.history (C := fun (s : Server) e => Inv id s.db ∧ Meets Grants s e) (I := Closed id) ?_ ?_
    fun x hx => ⟨(hsteps x hx).1, (hsteps x hx).2.2⟩⟩
  · obtain ⟨c, hc, hdraft, -⟩ := h.draft
    refine ⟨by simp, by simp, ?_⟩
    intro c' hc' hpublished
    rw [hc] at hc'
    obtain rfl := Option.some.inj hc'
    rw [hdraft] at hpublished
    cases hpublished
  intro tr s e u o _ hclosed ⟨hpre, hgrants⟩ hstep
  cases e with
  | begin request =>
    cases hstep
    exact closed_begin hclosed rfl
  | resume i m =>
    simp only [serve] at hstep
    split at hstep
    · rename_i st k hget
      cases hstep
      have hnext : nextStatement s i = some st := by rw [nextStatement, hget]
      exact closed_resume hclosed hpre (hgrants st hnext) hnext rfl
    · cases hstep

/-- The `i`-th call of the run is the request, and it returned `Ok`. -/
structure Returned (tr : List (Entry Server (Turn Request Moment) Unit)) (s : Server) (i : Nat)
    (request : Request) : Prop where
  begun : (begun tr)[i]? = some request
  ok : ∃ summary, s.calls[i]? = some (.done summary)

/-- A publication of the comment has committed. -/
def Published (tr : List (Entry Server (Turn Request Moment) Unit)) (id : Int) : Prop :=
  ∃ x ∈ tr, ∃ i p, p.commentId = id ∧ Made perform i (.publish p) x

def mentionBody : String :=
  "<p>hi <span data-yuance-mention-username=\"bob\">bob</span></p>"

/-- The cleaner on a body that it has nothing to change of. -/
def keepingCleaner : Cleaner where
  clean := fun _ body => body
  parse := fun _ => [.element "p" [] [.text "hi ".toList,
    .element "span" [("data-yuance-mention-username", "bob")] [.text "bob".toList]]]
  defaultTags := ["p", "span"]
  startTag := fun _ name _ => (name ++ ">").toList
  endTag := fun name => ("</" ++ name ++ ">").toList

/-- Alice has a draft that replies to Carol. -/
def replyDraft : Db where
  base :=
    { users := [⟨1, "alice", "Alice", true⟩, ⟨2, "bob", "Bob", true⟩, ⟨3, "carol", "Carol", true⟩]
      projects := [⟨1, "P", "Project", "", .inProgress, some 1, none, none, 0⟩]
      nextProject := 2
      members := [⟨1, 1, .owner, 0⟩, ⟨1, 2, .member, 0⟩, ⟨1, 3, .member, 0⟩]
      workItems := [⟨1, 1, "P-1", .task, "Item", "", .opened, .p2, some 1, some 1, none, none,
        none, none, none, none⟩]
      nextWorkItem := 2
      cycles := []
      comments := []
      activities := []
      unavailable := [] }
  comments := [⟨1, 1, some 3, none, "first", .plain, "Carol", false, none⟩,
    ⟨2, 1, some 1, some 1, "", .html, "Alice", true, none⟩]
  attachments := []
  resources := []
  releaseFiles := []
  files := { objects := [], configs := [], jobs := [], nextJob := 1 }
  notifications := []

def undisturbed : Moment := { now := 5, fault := none }

/-- Both calls have seen the draft when the publication commits. -/
def publishedBeforeCancel : List (Turn Request Moment) :=
  [.begin (.publish 1 "P-1" 2 mentionBody "html" "Alice"), .begin (.cancel 1 "P-1" 2),
    .resume 1 undisturbed, .resume 1 undisturbed, .resume 0 undisturbed, .resume 0 undisturbed,
    .resume 0 undisturbed, .resume 0 undisturbed, .resume 0 undisturbed, .resume 0 undisturbed,
    .resume 1 undisturbed]

end Drafts
end Projects
end Yuance
