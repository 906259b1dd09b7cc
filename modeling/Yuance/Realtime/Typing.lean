import Mathlib
import Yuance.Lib.HashMap
import Yuance.Lib.Runs
import Yuance.Lib.Text

/-!
# Yuance.Realtime.Typing

Who is typing on a work item: `update_work_item_typing_presence` and
`work_item_typing_snapshot_for_user` of `api/src/platform/realtime.rs`. The store is behind a lock,
so the calls come one after the other; each reads the clock once for each thing it does.

* `updateWorkItemTypingPresence`, `workItemTypingSnapshotForUser`: the two calls.
* `Typing`: a client whose last update is active and not too old.
* `snapshot_per_user`: as long as no update meets a client of another name under its own short
  name, a snapshot lists the users who type, and no user's update touches another's.
-/

namespace Yuance
namespace Realtime

open Lib

/-! ## The store -/

structure TypingPresenceEntry where
  userId : Int
  displayName : String
  expiresAt : Nat

structure WorkItemTypingUser where
  userId : Int
  displayName : String
deriving DecidableEq

abbrev WorkItemTypingPresence := JsMap String (JsMap String TypingPresenceEntry)

/-- `WORK_ITEM_TYPING_TTL`, in nanoseconds. -/
def typingTtl : Nat := 15000000000

/-- The order that the entries of a map happen to be visited in. -/
def VisitOrder := { visit : List TypingPresenceEntry → List TypingPresenceEntry //
  ∀ entries, (visit entries).Perm entries }

def normalizedItemKey (itemKey : String) : String := trim itemKey

def isClientChar (c : Char) : Bool := c.isAlphanum || c = '-' || c = '_' || c = '.' || c = ':'

def normalizedClientId (clientId : String) : String :=
  String.ofList (((trim clientId).toList.filter isClientChar).take 128)

def normalizedDisplayName (displayName : String) (userId : Int) : String :=
  if trim displayName = "" then "用户" ++ toString userId
  else String.ofList ((trim displayName).toList.take 64)

def isLive (now : Nat) (entry : TypingPresenceEntry) : Bool := now < entry.expiresAt

def cleanupExpiredTypingPresence (now : Nat) (store : WorkItemTypingPresence) :
    WorkItemTypingPresence :=
  (store.mapValues fun itemEntries => itemEntries.retain fun _ entry => isLive now entry).retain
    fun _ itemEntries => itemEntries.size ≠ 0

/-- `users.entry(user_id).or_insert_with(..)` of a sorted map. -/
def insertUser (entry : TypingPresenceEntry) : List WorkItemTypingUser → List WorkItemTypingUser
  | [] => [⟨entry.userId, entry.displayName⟩]
  | user :: users =>
    if entry.userId < user.userId then ⟨entry.userId, entry.displayName⟩ :: user :: users
    else if entry.userId = user.userId then user :: users
    else user :: insertUser entry users

def collectUsers (excludeUserId : Option Int) (entries : List TypingPresenceEntry) :
    List WorkItemTypingUser :=
  entries.foldl (fun users entry =>
    if excludeUserId = some entry.userId then users else insertUser entry users) []

def typingSnapshotForItem (order : VisitOrder) (now : Nat) (store : WorkItemTypingPresence)
    (itemKey : String) (excludeUserId : Option Int) :
    WorkItemTypingPresence × List WorkItemTypingUser :=
  match store.get itemKey with
  | none => (store, [])
  | some itemEntries =>
    let kept := itemEntries.retain fun _ entry => isLive now entry
    if kept.size = 0 then (store.delete itemKey, [])
    else (store.insert itemKey kept, collectUsers excludeUserId (order.1 kept.values))

/-! ## The calls -/

/-- An update, with what it reads of the clock. -/
structure Update where
  itemKey : String
  clientId : String
  userId : Int
  displayName : String
  active : Bool
  cleanedAt : Nat
  enteredAt : Nat
  listedAt : Nat

def Update.isAccepted (u : Update) : Bool :=
  normalizedItemKey u.itemKey ≠ "" && normalizedClientId u.clientId ≠ "" && 0 < u.userId

/-- The entries behind an update. -/
def enterUpdate (store : WorkItemTypingPresence) (u : Update) : WorkItemTypingPresence :=
  let itemKey := normalizedItemKey u.itemKey
  let clientId := normalizedClientId u.clientId
  if u.active then
    store.insert itemKey (((store.get itemKey).getD JsMap.empty).insert clientId
      ⟨u.userId, normalizedDisplayName u.displayName u.userId, u.enteredAt + typingTtl⟩)
  else
    match store.get itemKey with
    | none => store
    | some itemEntries =>
      if (itemEntries.delete clientId).size = 0 then store.delete itemKey
      else store.insert itemKey (itemEntries.delete clientId)

def updateWorkItemTypingPresence (order : VisitOrder) (store : WorkItemTypingPresence)
    (u : Update) : WorkItemTypingPresence × List WorkItemTypingUser :=
  if !u.isAccepted then (store, [])
  else
    typingSnapshotForItem order u.listedAt
      (enterUpdate (cleanupExpiredTypingPresence u.cleanedAt store) u)
      (normalizedItemKey u.itemKey) none

def workItemTypingSnapshotForUser (order : VisitOrder) (store : WorkItemTypingPresence)
    (itemKey : String) (excludeUserId : Int) (cleanedAt listedAt : Nat) :
    WorkItemTypingPresence × List WorkItemTypingUser :=
  if normalizedItemKey itemKey = "" then (store, [])
  else
    typingSnapshotForItem order listedAt (cleanupExpiredTypingPresence cleanedAt store)
      (normalizedItemKey itemKey) (if 0 < excludeUserId then some excludeUserId else none)

inductive Event where
  | update (u : Update)
  | snapshot (itemKey : String) (excludeUserId : Int) (cleanedAt listedAt : Nat)

structure State where
  store : WorkItemTypingPresence
  clock : Nat

def start : State := ⟨JsMap.empty, 0⟩

/-- A call; the clock does not go back. -/
def step (order : VisitOrder) (s : State) : Event → Option (State × List WorkItemTypingUser)
  | .update u =>
    if s.clock ≤ u.cleanedAt ∧ u.cleanedAt ≤ u.enteredAt ∧ u.enteredAt ≤ u.listedAt then
      let listed := updateWorkItemTypingPresence order s.store u
      some (⟨listed.1, u.listedAt⟩, listed.2)
    else none
  | .snapshot itemKey excludeUserId cleanedAt listedAt =>
    if s.clock ≤ cleanedAt ∧ cleanedAt ≤ listedAt then
      let listed :=
        workItemTypingSnapshotForUser order s.store itemKey excludeUserId cleanedAt listedAt
      some (⟨listed.1, listedAt⟩, listed.2)
    else none

/-! ## Who is typing -/

/-- A client as its user names it. -/
structure Client where
  user : Int
  id : String
deriving DecidableEq

/-- What an event says of a client on an item. -/
def Event.updateOf (item : String) (client : Client) : Event → Option (Bool × Nat)
  | .update u =>
    if u.isAccepted = true ∧ normalizedItemKey u.itemKey = item ∧ client = ⟨u.userId, u.clientId⟩
    then some (u.active, u.enteredAt)
    else none
  | .snapshot .. => none

def lastUpdate (events : List Event) (item : String) (client : Client) : Option (Bool × Nat) :=
  (events.filterMap (Event.updateOf item client)).getLast?

/-- The last update of the client was active, and less than the TTL ago. -/
def Typing (events : List Event) (item : String) (client : Client) (now : Nat) : Prop :=
  ∃ at_, lastUpdate events item client = some (true, at_) ∧ now < at_ + typingTtl

/-- Sorted by the id of the user, these users and no others. -/
structure Lists (users : List WorkItemTypingUser) (p : Int → Prop) : Prop where
  sorted : (users.map (·.userId)).Pairwise (· < ·)
  exact_ : ∀ id, id ∈ users.map (·.userId) ↔ p id

/-- No other client with the same short name is typing on the item when the update comes. -/
def Apart (before : List Event) (u : Update) : Prop :=
  ∀ client : Client, client ≠ ⟨u.userId, u.clientId⟩ →
    normalizedClientId client.id = normalizedClientId u.clientId →
      ¬ Typing before (normalizedItemKey u.itemKey) client u.enteredAt

def AllApart (events : List Event) : Prop :=
  ∀ before u after, events = before ++ .update u :: after → u.isAccepted = true → Apart before u

/-! ## What is stored -/

section Store

variable {store : WorkItemTypingPresence} {now later : Nat} {item key : String}
  {entry : TypingPresenceEntry} {u : Update} {order : VisitOrder}

/-- The entry of an item under a short client id. -/
def entryAt (store : WorkItemTypingPresence) (item key : String) : Option TypingPresenceEntry :=
  (store.get item).bind fun itemEntries => itemEntries.get key

theorem entryAt_insert (store : WorkItemTypingPresence) (asked : String)
    (entries : JsMap String TypingPresenceEntry) (item key : String) :
    entryAt (store.insert asked entries) item key =
      if item = asked then entries.get key else entryAt store item key := by
  unfold entryAt
  rw [JsMap.get_insert]
  split
  · rfl
  · rfl

theorem entryAt_delete (store : WorkItemTypingPresence) (asked item key : String) :
    entryAt (store.delete asked) item key =
      if item = asked then none else entryAt store item key := by
  unfold entryAt
  by_cases hitem : item = asked
  · rw [if_pos hitem, hitem, JsMap.get_delete]
    rfl
  · rw [if_neg hitem, JsMap.get_delete_of_ne hitem]

/-- An update sets or takes away the entry under its short client id. -/
theorem entryAt_enterUpdate (store : WorkItemTypingPresence) (u : Update) (item key : String) :
    entryAt (enterUpdate store u) item key =
      if item = normalizedItemKey u.itemKey ∧ key = normalizedClientId u.clientId then
        if u.active then some ⟨u.userId, normalizedDisplayName u.displayName u.userId,
          u.enteredAt + typingTtl⟩
        else none
      else entryAt store item key := by
  by_cases hitem : item = normalizedItemKey u.itemKey
  · have hsame : entryAt store item key =
        ((store.get (normalizedItemKey u.itemKey)).getD JsMap.empty).get key := by
      rw [hitem]
      unfold entryAt
      cases store.get (normalizedItemKey u.itemKey) with
      | none => rfl
      | some itemEntries => rfl
    unfold enterUpdate
    dsimp only
    cases hactive : u.active with
    | true =>
      rw [if_pos rfl, if_pos rfl, entryAt_insert, if_pos hitem, JsMap.get_insert, hsame]
      by_cases hkey : key = normalizedClientId u.clientId
      · rw [if_pos hkey, if_pos ⟨hitem, hkey⟩]
      · rw [if_neg hkey, if_neg fun h => hkey h.2]
    | false =>
      rw [if_neg Bool.false_ne_true, if_neg Bool.false_ne_true]
      cases hget : store.get (normalizedItemKey u.itemKey) with
      | none =>
        dsimp only
        rw [hsame, hget]
        split
        · rfl
        · rfl
      | some itemEntries =>
        dsimp only
        have hdelete : (itemEntries.delete (normalizedClientId u.clientId)).get key =
            if item = normalizedItemKey u.itemKey ∧ key = normalizedClientId u.clientId then none
            else entryAt store item key := by
          rw [hsame, hget]
          by_cases hkey : key = normalizedClientId u.clientId
          · rw [if_pos ⟨hitem, hkey⟩, hkey, JsMap.get_delete]
          · rw [if_neg fun h => hkey h.2, JsMap.get_delete_of_ne hkey]
            rfl
        rw [← hdelete]
        split
        · rename_i hsize
          rw [entryAt_delete, if_pos hitem, JsMap.size_eq_zero.mp hsize]
        · rw [entryAt_insert, if_pos hitem]
  · rw [if_neg fun h => hitem h.1]
    unfold enterUpdate
    dsimp only
    split
    · rw [entryAt_insert, if_neg hitem]
    · split
      · rfl
      · split
        · rw [entryAt_delete, if_neg hitem]
        · rw [entryAt_insert, if_neg hitem]

/-- The entry, if it has not run out. -/
def live (now : Nat) (store : WorkItemTypingPresence) (item key : String) :
    Option TypingPresenceEntry :=
  (entryAt store item key).filter (isLive now)

theorem filter_later (h : now ≤ later) (found : Option TypingPresenceEntry) :
    (found.filter (isLive now)).filter (isLive later) = found.filter (isLive later) := by
  cases found with
  | none => rfl
  | some entry =>
    by_cases hlater : isLive later entry = true
    · have hnow : isLive now entry = true := by
        unfold isLive at hlater ⊢
        have := of_decide_eq_true hlater
        exact decide_eq_true (by omega)
      rw [Option.filter_some, if_pos hnow]
    · rw [Option.filter_some, Option.filter_some, if_neg hlater]
      split
      · rw [Option.filter_some, if_neg hlater]
      · rfl

theorem live_later (h : now ≤ later) (store : WorkItemTypingPresence) (item key : String) :
    live later store item key = (live now store item key).filter (isLive later) :=
  (filter_later h _).symm

/-- The entries of an item that have not run out. -/
def keptEntries (now : Nat) (itemEntries : JsMap String TypingPresenceEntry) :
    JsMap String TypingPresenceEntry :=
  itemEntries.retain fun _ entry => isLive now entry

theorem get_keptEntries (now : Nat) (itemEntries : JsMap String TypingPresenceEntry)
    (key : String) :
    (keptEntries now itemEntries).get key = (itemEntries.get key).filter (isLive now) :=
  JsMap.get_retain _ _ _

theorem filter_of_kept_empty (h : now ≤ later) {itemEntries : JsMap String TypingPresenceEntry}
    (hsize : (keptEntries now itemEntries).size = 0) :
    (itemEntries.get key).filter (isLive later) = none := by
  rw [← filter_later h, ← get_keptEntries, JsMap.size_eq_zero.mp hsize]
  rfl

/-- The clean-up takes away only what has run out. -/
theorem live_cleanup (h : now ≤ later) (store : WorkItemTypingPresence) (item key : String) :
    live later (cleanupExpiredTypingPresence now store) item key = live later store item key := by
  unfold live entryAt cleanupExpiredTypingPresence
  rw [JsMap.get_retain, JsMap.get_mapValues]
  cases store.get item with
  | none => rfl
  | some itemEntries =>
    rw [Option.map_some, Option.filter_some]
    split
    · show ((keptEntries now itemEntries).get key).filter _ = (itemEntries.get key).filter _
      rw [get_keptEntries, filter_later h]
    · rename_i hempty
      have hsize : (keptEntries now itemEntries).size = 0 := by
        by_contra hne
        exact hempty (decide_eq_true hne)
      exact (filter_of_kept_empty h hsize).symm

/-- So does a snapshot. -/
theorem live_snapshot (h : now ≤ later) (exclude : Option Int) (asked : String) :
    live later (typingSnapshotForItem order now store asked exclude).1 item key =
      live later store item key := by
  unfold typingSnapshotForItem live
  cases hget : store.get asked with
  | none => rfl
  | some itemEntries =>
    have hsame : ∀ k, entryAt store asked k = itemEntries.get k := by
      intro k
      unfold entryAt
      rw [hget]
      rfl
    dsimp only
    split
    · rename_i hsize
      rw [entryAt_delete]
      by_cases hitem : item = asked
      · rw [if_pos hitem, hitem, hsame, filter_of_kept_empty h hsize]
        rfl
      · rw [if_neg hitem]
    · rw [entryAt_insert]
      by_cases hitem : item = asked
      · rw [if_pos hitem, hitem, hsame]
        show ((keptEntries now itemEntries).get key).filter _ = _
        rw [get_keptEntries, filter_later h]
      · rw [if_neg hitem]

/-- What an accepted update leaves. -/
theorem live_update (hcleaned : u.cleanedAt ≤ u.listedAt) (h : u.listedAt ≤ later)
    (haccepted : u.isAccepted = true) :
    live later (updateWorkItemTypingPresence order store u).1 item key =
      if item = normalizedItemKey u.itemKey ∧ key = normalizedClientId u.clientId then
        if u.active then (some ⟨u.userId, normalizedDisplayName u.displayName u.userId,
          u.enteredAt + typingTtl⟩ : Option TypingPresenceEntry).filter (isLive later)
        else none
      else live later store item key := by
  unfold updateWorkItemTypingPresence
  rw [haccepted, Bool.not_true, if_neg Bool.false_ne_true, live_snapshot h]
  have hkept := live_cleanup (Nat.le_trans hcleaned h) store item key
  unfold live at hkept ⊢
  rw [entryAt_enterUpdate]
  split
  · split
    · rfl
    · rfl
  · exact hkept

/-! ## What is listed -/

theorem mem_insertUser (entry : TypingPresenceEntry) (users : List WorkItemTypingUser) (id : Int) :
    id ∈ (insertUser entry users).map (·.userId) ↔
      id = entry.userId ∨ id ∈ users.map (·.userId) := by
  induction users with
  | nil => rw [insertUser, List.map_singleton, List.mem_singleton, List.map_nil, or_iff_left
      List.not_mem_nil]
  | cons user users ih =>
    unfold insertUser
    split
    · rw [List.map_cons, List.mem_cons]
    · split
      · rename_i hsame
        rw [List.map_cons, List.mem_cons, hsame]
        exact ⟨.inr, fun h => h.elim .inl fun hmem => hmem⟩
      · rw [List.map_cons, List.mem_cons, ih, List.map_cons, List.mem_cons]
        exact or_left_comm

theorem sorted_insertUser (entry : TypingPresenceEntry) {users : List WorkItemTypingUser}
    (h : (users.map (·.userId)).Pairwise (· < ·)) :
    ((insertUser entry users).map (·.userId)).Pairwise (· < ·) := by
  induction users with
  | nil => exact List.pairwise_singleton _ _
  | cons user users ih =>
    obtain ⟨hfirst, hrest⟩ := List.pairwise_cons.mp h
    unfold insertUser
    split
    · rename_i hless
      refine List.pairwise_cons.mpr ⟨?_, h⟩
      intro id hid
      rcases List.mem_cons.mp hid with rfl | hmem
      · exact hless
      · exact Int.lt_trans hless (hfirst id hmem)
    · split
      · exact h
      · rename_i hnot hne
        refine List.pairwise_cons.mpr ⟨?_, ih hrest⟩
        intro id hid
        rcases (mem_insertUser entry users id).mp hid with rfl | hmem
        · show user.userId < entry.userId
          omega
        · exact hfirst id hmem

/-- The users of the entries, but for the one left out. -/
theorem collectUsers_lists (exclude : Option Int) (entries : List TypingPresenceEntry) :
    Lists (collectUsers exclude entries) fun id =>
      exclude ≠ some id ∧ ∃ entry ∈ entries, entry.userId = id := by
  have hfold : ∀ users : List WorkItemTypingUser, (users.map (·.userId)).Pairwise (· < ·) →
      Lists (entries.foldl (fun users entry =>
        if exclude = some entry.userId then users else insertUser entry users) users) fun id =>
          id ∈ users.map (·.userId) ∨ exclude ≠ some id ∧ ∃ entry ∈ entries, entry.userId = id := by
    induction entries with
    | nil =>
      intro users h
      refine ⟨h, fun user => ⟨.inl, ?_⟩⟩
      rintro (hold | ⟨_, _, hmem, _⟩)
      · exact hold
      · cases hmem
    | cons entry entries ih =>
      intro users h
      rw [List.foldl_cons]
      by_cases hexcluded : exclude = some entry.userId
      · rw [if_pos hexcluded]
        obtain ⟨hsorted, hexact⟩ := ih users h
        refine ⟨hsorted, fun id => (hexact id).trans (or_congr_right (and_congr_right ?_))⟩
        intro hne
        refine ⟨fun ⟨e, he, heq⟩ => ⟨e, List.mem_cons_of_mem _ he, heq⟩, ?_⟩
        rintro ⟨e, he, heq⟩
        rcases List.mem_cons.mp he with rfl | hmem
        · exact absurd (heq ▸ hexcluded) hne
        · exact ⟨e, hmem, heq⟩
      · rw [if_neg hexcluded]
        obtain ⟨hsorted, hexact⟩ := ih _ (sorted_insertUser entry h)
        refine ⟨hsorted, fun id => (hexact id).trans ?_⟩
        rw [mem_insertUser]
        constructor
        · rintro ((rfl | hold) | ⟨hne, e, he, heq⟩)
          · exact .inr ⟨hexcluded, entry, List.mem_cons_self, rfl⟩
          · exact .inl hold
          · exact .inr ⟨hne, e, List.mem_cons_of_mem _ he, heq⟩
        · rintro (hold | ⟨hne, e, he, heq⟩)
          · exact .inl (.inr hold)
          · rcases List.mem_cons.mp he with rfl | hmem
            · exact .inl (.inl heq.symm)
            · exact .inr ⟨hne, e, hmem, heq⟩
  obtain ⟨hsorted, hexact⟩ := hfold [] List.Pairwise.nil
  refine ⟨hsorted, fun id => (hexact id).trans ?_⟩
  rw [List.map_nil]
  exact or_iff_right List.not_mem_nil

/-- A snapshot lists the users of the entries that have not run out. -/
theorem typingSnapshotForItem_lists (order : VisitOrder) (now : Nat)
    (store : WorkItemTypingPresence) (item : String) (exclude : Option Int) :
    Lists (typingSnapshotForItem order now store item exclude).2 fun id =>
      exclude ≠ some id ∧ ∃ key entry, live now store item key = some entry ∧
        entry.userId = id := by
  unfold typingSnapshotForItem live entryAt
  cases hget : store.get item with
  | none =>
    dsimp only
    refine ⟨List.Pairwise.nil, fun id => ⟨fun h => absurd h List.not_mem_nil, ?_⟩⟩
    rintro ⟨_, key, entry, hlive, _⟩
    cases hlive
  | some itemEntries =>
    dsimp only
    have hvalues : ∀ entry, entry ∈ (keptEntries now itemEntries).values ↔
        ∃ key, (itemEntries.get key).filter (isLive now) = some entry := by
      intro entry
      rw [JsMap.mem_values]
      refine exists_congr fun key => ?_
      rw [get_keptEntries]
    split
    · rename_i hsize
      refine ⟨List.Pairwise.nil, fun id => ⟨fun h => absurd h List.not_mem_nil, ?_⟩⟩
      rintro ⟨_, key, entry, hlive, _⟩
      have hnone := @filter_of_kept_empty now now key (Nat.le_refl now) itemEntries hsize
      rw [Option.bind_some, hnone] at hlive
      cases hlive
    · obtain ⟨hsorted, hexact⟩ := collectUsers_lists exclude
        (order.1 (keptEntries now itemEntries).values)
      refine ⟨hsorted, fun id => (hexact id).trans (and_congr_right fun _ => ?_)⟩
      constructor
      · rintro ⟨entry, hentry, heq⟩
        obtain ⟨key, hkey⟩ := (hvalues entry).mp ((order.2 _).mem_iff.mp hentry)
        exact ⟨key, entry, hkey, heq⟩
      · rintro ⟨key, entry, hkey, heq⟩
        exact ⟨entry, (order.2 _).mem_iff.mpr ((hvalues entry).mpr ⟨key, hkey⟩), heq⟩

end Store

/-! ## What a run leaves -/

section Run

variable {events before : List Event} {e : Event} {u : Update} {item : String} {client : Client}
  {now later : Nat} {s s' : State} {order : VisitOrder} {users : List WorkItemTypingUser}

theorem lastUpdate_append (events : List Event) (e : Event) (item : String) (client : Client) :
    lastUpdate (events ++ [e]) item client =
      (e.updateOf item client).or (lastUpdate events item client) := by
  unfold lastUpdate
  rw [List.filterMap_append, List.getLast?_append]
  congr 1
  cases hupdate : e.updateOf item client with
  | none => rw [List.filterMap_cons_none hupdate]; rfl
  | some said => rw [List.filterMap_cons_some hupdate]; rfl

/-- Only accepted updates of this client on this item count. -/
theorem updateOf_eq_some {said : Bool × Nat} : e.updateOf item client = some said ↔
    ∃ u, e = .update u ∧ u.isAccepted = true ∧ normalizedItemKey u.itemKey = item ∧
      client = ⟨u.userId, u.clientId⟩ ∧ said = (u.active, u.enteredAt) := by
  cases e with
  | snapshot itemKey exclude cleanedAt listedAt =>
    refine ⟨fun h => absurd h (by exact fun hnone => nomatch hnone), ?_⟩
    rintro ⟨_, heq, _⟩
    cases heq
  | update u =>
    unfold Event.updateOf
    rw [Option.ite_none_right_eq_some, Option.some.injEq]
    constructor
    · rintro ⟨⟨haccepted, hitem, hclient⟩, rfl⟩
      exact ⟨u, rfl, haccepted, hitem, hclient, rfl⟩
    · rintro ⟨_, heq, haccepted, hitem, hclient, rfl⟩
      obtain rfl := Event.update.inj heq
      exact ⟨⟨haccepted, hitem, hclient⟩, rfl⟩

theorem Typing.earlier (h : Typing events item client later) (hle : now ≤ later) :
    Typing events item client now := by
  obtain ⟨at_, hlast, hlive⟩ := h
  exact ⟨at_, hlast, Nat.lt_of_le_of_lt hle hlive⟩

/-- Whoever types was entered by an accepted update. -/
theorem Typing.user_pos (h : Typing events item client now) : 0 < client.user := by
  obtain ⟨at_, hlast, _⟩ := h
  obtain ⟨e, _, hupdate⟩ := List.mem_filterMap.mp (List.mem_of_getLast? hlast)
  obtain ⟨u, rfl, haccepted, _, rfl, _⟩ := updateOf_eq_some.mp hupdate
  simp only [Update.isAccepted, Bool.and_eq_true, decide_eq_true_eq] at haccepted
  exact haccepted.2

/-- An event that says nothing of a client leaves it as it is. -/
theorem typing_append_of_none (h : e.updateOf item client = none) :
    Typing (events ++ [e]) item client now ↔ Typing events item client now := by
  unfold Typing
  rw [lastUpdate_append, h, Option.none_or]

/-- The entries that have not run out are those of the clients that type, each under its own short
client id. -/
structure Kept (events : List Event) (s : State) : Prop where
  present : ∀ item client at_, lastUpdate events item client = some (true, at_) →
    s.clock < at_ + typingTtl → ∃ name,
      live s.clock s.store item (normalizedClientId client.id) =
        some ⟨client.user, name, at_ + typingTtl⟩
  typed : ∀ item key entry, live s.clock s.store item key = some entry →
    ∃ client at_, normalizedClientId client.id = key ∧
      lastUpdate events item client = some (true, at_) ∧ entry.userId = client.user ∧
      entry.expiresAt = at_ + typingTtl
  apart : ∀ item c c', Typing events item c s.clock → Typing events item c' s.clock →
    normalizedClientId c.id = normalizedClientId c'.id → c = c'

/-- Time alone changes nothing. -/
theorem Kept.wait (h : Kept events s) (hclock : s.clock ≤ s'.clock)
    (hlive : ∀ item key, live s'.clock s'.store item key = live s'.clock s.store item key)
    (hlast : ∀ item client, lastUpdate before item client = lastUpdate events item client) :
    Kept before s' := by
  refine ⟨?_, ?_, ?_⟩
  · intro item client at_ hupdate hnow
    rw [hlast] at hupdate
    obtain ⟨name, hentry⟩ := h.present item client at_ hupdate (Nat.lt_of_le_of_lt hclock hnow)
    refine ⟨name, ?_⟩
    rw [hlive, live_later hclock, hentry]
    exact if_pos (decide_eq_true hnow)
  · intro item key entry hentry
    rw [hlive, live_later hclock] at hentry
    obtain ⟨client, at_, hkey, hupdate, hrest⟩ :=
      h.typed item key entry (Option.filter_eq_some_iff.mp hentry).1
    exact ⟨client, at_, hkey, (hlast item client).trans hupdate, hrest⟩
  · intro item c c' hc hc' hkey
    have hsame : ∀ client, Typing before item client s'.clock →
        Typing events item client s.clock := by
      intro client htyping
      refine Typing.earlier ?_ hclock
      unfold Typing at htyping ⊢
      rwa [hlast] at htyping
    exact h.apart item c c' (hsame c hc) (hsame c' hc') hkey

/-- An update of a client that no other one is mistaken for. -/
theorem Kept.update (h : Kept events s) (haccepted : u.isAccepted = true)
    (hapart : Apart events u) (hcleaned : s.clock ≤ u.cleanedAt)
    (hentered : u.cleanedAt ≤ u.enteredAt) (hlisted : u.enteredAt ≤ u.listedAt) :
    Kept (events ++ [.update u])
      ⟨(updateWorkItemTypingPresence order s.store u).1, u.listedAt⟩ := by
  have hclock : s.clock ≤ u.listedAt := by omega
  have hlive := fun item key => @live_update s.store u.listedAt item key u order
    (Nat.le_trans hentered hlisted) (Nat.le_refl _) haccepted
  have hnone : ∀ item client, ¬ (item = normalizedItemKey u.itemKey ∧
      client = ⟨u.userId, u.clientId⟩) → Event.updateOf item client (.update u) = none := by
    intro item client hnot
    exact if_neg fun ⟨_, hitem, hclient⟩ => hnot ⟨hitem.symm, hclient⟩
  have hsome : Event.updateOf (normalizedItemKey u.itemKey) ⟨u.userId, u.clientId⟩ (.update u) =
      some (u.active, u.enteredAt) := if_pos ⟨haccepted, rfl, rfl⟩
  -- a client that types after the update without being its own typed before
  have hbefore : ∀ client, client ≠ ⟨u.userId, u.clientId⟩ →
      Typing (events ++ [.update u]) (normalizedItemKey u.itemKey) client u.listedAt →
      normalizedClientId client.id ≠ normalizedClientId u.clientId := by
    intro client hne htyping hkey
    refine hapart client hne hkey (Typing.earlier ?_ hlisted)
    exact (typing_append_of_none (hnone _ client fun hboth => hne hboth.2)).mp htyping
  refine ⟨?_, ?_, ?_⟩
  · intro item client at_ hupdate hnow
    rw [hlive]
    by_cases hown : item = normalizedItemKey u.itemKey ∧ client = ⟨u.userId, u.clientId⟩
    · obtain ⟨rfl, rfl⟩ := hown
      rw [lastUpdate_append, hsome, Option.some_or] at hupdate
      obtain ⟨hactive, rfl⟩ := Prod.mk.inj (Option.some.inj hupdate)
      rw [if_pos ⟨rfl, rfl⟩, hactive, if_pos rfl]
      exact ⟨_, if_pos (decide_eq_true hnow)⟩
    · have hold := hupdate
      rw [lastUpdate_append, hnone item client hown, Option.none_or] at hold
      have hkeys : ¬ (item = normalizedItemKey u.itemKey ∧
          normalizedClientId client.id = normalizedClientId u.clientId) := by
        rintro ⟨rfl, hkey⟩
        exact hbefore client (fun hclient => hown ⟨rfl, hclient⟩) ⟨at_, hupdate, hnow⟩ hkey
      obtain ⟨name, hentry⟩ := h.present item client at_ hold (Nat.lt_of_le_of_lt hclock hnow)
      refine ⟨name, ?_⟩
      rw [if_neg hkeys, live_later hclock, hentry]
      exact if_pos (decide_eq_true hnow)
  · intro item key entry hentry
    rw [hlive] at hentry
    split at hentry
    · rename_i hkeys
      obtain ⟨rfl, rfl⟩ := hkeys
      split at hentry
      · rename_i hactive
        obtain ⟨heq, _⟩ := Option.filter_eq_some_iff.mp hentry
        obtain rfl := Option.some.inj heq
        refine ⟨⟨u.userId, u.clientId⟩, u.enteredAt, rfl, ?_, rfl, rfl⟩
        rw [lastUpdate_append, hsome, hactive]
        rfl
      · cases hentry
    · rename_i hkeys
      rw [live_later hclock] at hentry
      obtain ⟨client, at_, hkey, hupdate, hrest⟩ :=
        h.typed item key entry (Option.filter_eq_some_iff.mp hentry).1
      refine ⟨client, at_, hkey, ?_, hrest⟩
      rw [lastUpdate_append, hnone item client ?_, Option.none_or]
      · exact hupdate
      · rintro ⟨hitem, rfl⟩
        exact hkeys ⟨hitem, hkey.symm⟩
  · intro item c c' hc hc' hkey
    by_cases hown : item = normalizedItemKey u.itemKey ∧ c = ⟨u.userId, u.clientId⟩
    · obtain ⟨rfl, rfl⟩ := hown
      by_contra hne
      exact hbefore c' (fun heq => hne heq.symm) hc' hkey.symm
    · by_cases hown' : item = normalizedItemKey u.itemKey ∧ c' = ⟨u.userId, u.clientId⟩
      · obtain ⟨rfl, rfl⟩ := hown'
        by_contra hne
        exact hbefore c hne hc hkey
      · have hold := (typing_append_of_none (hnone item c hown)).mp hc
        have hold' := (typing_append_of_none (hnone item c' hown')).mp hc'
        exact h.apart item c c' (hold.earlier hclock) (hold'.earlier hclock) hkey

theorem step_update (h : Realtime.step order s (.update u) = some (s', users)) :
    (s.clock ≤ u.cleanedAt ∧ u.cleanedAt ≤ u.enteredAt ∧ u.enteredAt ≤ u.listedAt) ∧
      s' = ⟨(updateWorkItemTypingPresence order s.store u).1, u.listedAt⟩ := by
  obtain ⟨hclock, heq⟩ := Option.ite_none_right_eq_some.mp h
  exact ⟨hclock, (Prod.mk.inj (Option.some.inj heq)).1.symm⟩

theorem step_snapshot {itemKey : String} {exclude : Int} {cleanedAt listedAt : Nat}
    (h : Realtime.step order s (.snapshot itemKey exclude cleanedAt listedAt) = some (s', users)) :
    (s.clock ≤ cleanedAt ∧ cleanedAt ≤ listedAt) ∧
      s' = ⟨(workItemTypingSnapshotForUser order s.store itemKey exclude cleanedAt listedAt).1,
        listedAt⟩ := by
  obtain ⟨hclock, heq⟩ := Option.ite_none_right_eq_some.mp h
  exact ⟨hclock, (Prod.mk.inj (Option.some.inj heq)).1.symm⟩

/-- A call without an accepted update leaves everything as it is. -/
theorem Kept.idle (h : Kept events s) (hclock : s.clock ≤ s'.clock)
    (hlive : ∀ item key, live s'.clock s'.store item key = live s'.clock s.store item key)
    (hnone : ∀ item client, e.updateOf item client = none) : Kept (events ++ [e]) s' :=
  h.wait hclock hlive fun item client => by
    rw [lastUpdate_append, hnone, Option.none_or]

/-- One call. -/
theorem Kept.step (h : Kept events s) (hstep : step order s e = some (s', users))
    (hapart : ∀ u, e = .update u → u.isAccepted = true → Apart events u) :
    Kept (events ++ [e]) s' ∧ s.clock ≤ s'.clock := by
  cases e with
  | update u =>
    obtain ⟨⟨hcleaned, hentered, hlisted⟩, rfl⟩ := step_update hstep
    have hclock : s.clock ≤ u.listedAt := by omega
    refine ⟨?_, hclock⟩
    cases haccepted : u.isAccepted with
    | true => exact h.update haccepted (hapart u rfl haccepted) hcleaned hentered hlisted
    | false =>
      have hsame : (updateWorkItemTypingPresence order s.store u).1 = s.store := by
        unfold updateWorkItemTypingPresence
        rw [haccepted]
        rfl
      refine h.idle hclock (fun item key => ?_) fun item client => ?_
      · show live u.listedAt (updateWorkItemTypingPresence order s.store u).1 item key = _
        rw [hsame]
      · exact if_neg fun hboth => Bool.false_ne_true (haccepted.symm.trans hboth.1)
  | snapshot itemKey exclude cleanedAt listedAt =>
    obtain ⟨⟨hcleaned, hlisted⟩, rfl⟩ := step_snapshot hstep
    have hclock : s.clock ≤ listedAt := Nat.le_trans hcleaned hlisted
    refine ⟨h.idle hclock (fun item key => ?_) (fun _ _ => rfl), hclock⟩
    show live listedAt (workItemTypingSnapshotForUser order s.store itemKey exclude cleanedAt
      listedAt).1 item key = _
    unfold workItemTypingSnapshotForUser
    split
    · rfl
    · rw [live_snapshot (Nat.le_refl _), live_cleanup hlisted]

theorem AllApart.front {after : List Event} (h : AllApart (events ++ after)) : AllApart events := by
  intro before u rest heq
  refine h before u (rest ++ after) ?_
  rw [heq, List.append_assoc]
  rfl

/-- Along a run whose updates are not mistaken for one another. -/
theorem kept_of_run {tr : List (Lib.Entry State Event (List WorkItemTypingUser))}
    (hrun : Lib.Run (Realtime.step order) start tr s) (hapart : AllApart (tr.map (·.event))) :
    Kept (tr.map (·.event)) s := by
  induction hrun with
  | start =>
    refine ⟨?_, ?_, ?_⟩
    · intro _ _ _ hupdate
      cases hupdate
    · intro _ _ _ hentry
      cases hentry
    · rintro _ _ _ ⟨_, hlast, _⟩
      cases hlast
  | @next tr t s' e users _ hstep ih =>
    rw [List.map_append, List.map_singleton] at hapart ⊢
    refine ((ih hapart.front).step hstep ?_).1
    intro u heq haccepted
    have he : e = .update u := heq
    exact hapart _ u [] (by rw [he]) haccepted

/-! ## The snapshot -/

/-- A snapshot lists exactly the users who type, but for the excluded one. -/
def ListsTyping (order : VisitOrder) (events : List Event) (s : State) : Prop :=
  ∀ itemKey excludeUserId cleanedAt listedAt, normalizedItemKey itemKey ≠ "" →
    s.clock ≤ cleanedAt → cleanedAt ≤ listedAt →
      Lists (workItemTypingSnapshotForUser order s.store itemKey excludeUserId cleanedAt
        listedAt).2 fun user => user ≠ excludeUserId ∧
          ∃ id, Typing events (normalizedItemKey itemKey) ⟨user, id⟩ listedAt

/-- Whether another user is listed is the same before and after the update. -/
def LeavesOthers (order : VisitOrder) (u : Update) (s s' : State) : Prop :=
  ∀ user ≠ u.userId, ∀ itemKey excludeUserId cleanedAt listedAt,
    s'.clock ≤ cleanedAt → cleanedAt ≤ listedAt →
      (user ∈ (workItemTypingSnapshotForUser order s'.store itemKey excludeUserId cleanedAt
          listedAt).2.map (·.userId) ↔
        user ∈ (workItemTypingSnapshotForUser order s.store itemKey excludeUserId cleanedAt
          listedAt).2.map (·.userId))

theorem Kept.lists (h : Kept events s) : ListsTyping order events s := by
  intro itemKey exclude cleanedAt listedAt hitem hcleaned hlisted
  unfold workItemTypingSnapshotForUser
  rw [if_neg hitem]
  obtain ⟨hsorted, hexact⟩ := typingSnapshotForItem_lists order listedAt
    (cleanupExpiredTypingPresence cleanedAt s.store) (normalizedItemKey itemKey)
    (if 0 < exclude then some exclude else none)
  refine ⟨hsorted, fun user => (hexact user).trans ?_⟩
  have hclock := Nat.le_trans hcleaned hlisted
  constructor
  · rintro ⟨hne, key, entry, hentry, rfl⟩
    rw [live_cleanup hlisted, live_later hclock] at hentry
    obtain ⟨hold, hnow⟩ := Option.filter_eq_some_iff.mp hentry
    obtain ⟨client, at_, _, hupdate, huser, hexpires⟩ := h.typed _ _ _ hold
    have htyping : Typing events (normalizedItemKey itemKey) client listedAt :=
      ⟨at_, hupdate, hexpires ▸ of_decide_eq_true hnow⟩
    rw [huser] at hne ⊢
    refine ⟨?_, client.id, htyping⟩
    rintro rfl
    exact hne (if_pos htyping.user_pos)
  · rintro ⟨hne, id, htyping⟩
    obtain ⟨at_, hupdate, hnow⟩ := htyping
    obtain ⟨name, hentry⟩ := h.present _ _ _ hupdate (Nat.lt_of_le_of_lt hclock hnow)
    refine ⟨?_, normalizedClientId id, ⟨user, name, at_ + typingTtl⟩, ?_, rfl⟩
    · intro heq
      obtain ⟨_, hexcluded⟩ := Option.ite_none_right_eq_some.mp heq
      exact hne (Option.some.inj hexcluded).symm
    · rw [live_cleanup hlisted, live_later hclock, hentry]
      exact if_pos (decide_eq_true hnow)

theorem Kept.leavesOthers (h : Kept events s)
    (hstep : Realtime.step order s (.update u) = some (s', users))
    (hapart : u.isAccepted = true → Apart events u) : LeavesOthers order u s s' := by
  intro user hne itemKey exclude cleanedAt listedAt hcleaned hlisted
  obtain ⟨hnext, hclock⟩ := h.step hstep fun u' heq haccepted => by
    obtain rfl := Event.update.inj heq
    exact hapart haccepted
  by_cases hitem : normalizedItemKey itemKey = ""
  · unfold workItemTypingSnapshotForUser
    rw [if_pos hitem, if_pos hitem]
  · rw [(hnext.lists itemKey exclude cleanedAt listedAt hitem hcleaned hlisted).exact_,
      (h.lists itemKey exclude cleanedAt listedAt hitem (Nat.le_trans hclock hcleaned)
        hlisted).exact_]
    refine and_congr_right fun _ => exists_congr fun id => typing_append_of_none ?_
    refine if_neg fun ⟨_, _, hclient⟩ => hne ?_
    exact congrArg Client.user hclient

end Run

/-! ## Two users of one client id -/

def listOrder : VisitOrder := ⟨fun entries => entries, fun _ => List.Perm.refl _⟩

def typingUpdate (clientId : String) (userId : Int) (at_ : Nat) : Update :=
  ⟨"YCE-1", clientId, userId, "", true, at_, at_, at_⟩

def updatedOnce : State :=
  ⟨(updateWorkItemTypingPresence listOrder JsMap.empty (typingUpdate "client-a" 7 1)).1, 1⟩

def updatedTwice : State :=
  ⟨(updateWorkItemTypingPresence listOrder updatedOnce.store (typingUpdate "client-a" 8 2)).1, 2⟩

end Realtime
end Yuance
