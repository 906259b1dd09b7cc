import Yuance.Lib.Phases
import Yuance.Tokens.Model

/-!
# Yuance.Tokens.Limits

The limits on the number of tokens. A creation counts the tokens in one statement and inserts its own
in a later one.

* `Pool`: the tokens that are counted together.
* `CountHolds`: where a creation inserts, its pool has not grown since it counted.
* `token_limits_hold`: every pool stays within its limit.
-/

namespace Yuance
namespace Tokens

open Lib Platform

/-- The tokens that a limit is about. -/
inductive Pool where
  /-- The tokens of the user that are not revoked. -/
  | user (userId : Int)
  | system
  deriving DecidableEq, Repr

def Pool.limit : Pool → Nat
  | user _ => maxActiveTokensPerUser
  | system => maxActiveSystemTokens

def Db.held (db : Db) : Pool → Nat
  | .user userId => db.activeTokenCount userId
  | .system => db.systemTokens.length

/-! ## What a creation has counted -/

inductive Phase where
  /-- It has not counted, or has inserted. -/
  | idle
  /-- It has found so many tokens in the pool. -/
  | counted (pool : Pool) (held : Nat)
  deriving DecidableEq, Repr

def Phase.next (q : Phase) (s : Statement) (answer : Except AppError s.Answer) : Phase :=
  match s, answer with
  | .activeTokenCount userId, .ok held => .counted (.user userId) held
  | .systemTokenCount, .ok held => .counted .system held
  | .insertToken _, _ => .idle
  | .insertSystemToken _, _ => .idle
  | _, _ => q

/-- A creation inserts into a pool that it has counted and that was not full. -/
def Phase.allows (q : Phase) : Statement → Prop
  | .insertToken row => ∃ held, q = .counted (.user row.userId) held ∧ held < maxActiveTokensPerUser
  | .insertSystemToken _ => ∃ held, q = .counted .system held ∧ held < maxActiveSystemTokens
  | _ => True

def counting : Guide Statement Statement.Answer AppError Request Phase where
  begin := fun _ => .idle
  next := Phase.next
  allows := Phase.allows
  fails := fun _ => True
  returns := fun _ => True

section Walking

variable {q : Phase}

theorem query_counts {s : Statement} (hallows : q.allows s) :
    Walks counting (fun a q' => q' = q.next s (.ok a)) (query s) q :=
  ⟨hallows, fun _ => trivial, fun _ => rfl⟩

theorem check_counts {α : Type} {x : Except AppError α} :
    Walks counting (fun _ q' => q' = q) (Call.ofExcept x : Task α) q :=
  walks_check trivial fun _ _ => rfl

theorem getTokenForUser_counts (userId tokenId : Int) :
    Walks counting (fun _ _ => True) (getTokenForUser userId tokenId) q := by
  refine walks_bind (query_counts trivial) ?_
  intro row q' _
  refine walks_bind (R := fun _ _ => True) (walks_okOr (fun _ => trivial) fun _ _ => trivial) ?_
  intro _ _ _
  exact walks_done trivial

theorem getSystemToken_counts (tokenId : Int) :
    Walks counting (fun _ _ => True) (getSystemToken tokenId) q := by
  refine walks_bind (query_counts trivial) ?_
  intro row q' _
  refine walks_bind (R := fun _ _ => True) (walks_okOr (fun _ => trivial) fun _ _ => trivial) ?_
  intro _ _ _
  exact walks_done trivial

theorem createToken_counts (S : Secrets) (draw : Draw) (userId : Int) (input : CreateApiTokenInput) :
    Walks counting (fun _ _ => True) (createToken S draw userId input) q := by
  refine walks_bind check_counts ?_
  rintro name _ rfl
  refine walks_bind check_counts ?_
  rintro scopes _ rfl
  refine walks_bind check_counts ?_
  rintro projectScope _ rfl
  refine walks_bind check_counts ?_
  rintro expiresAt _ rfl
  refine walks_bind check_counts ?_
  rintro tokenCiphertext _ rfl
  refine walks_bind (query_counts (s := .activeTokenCount userId) trivial) ?_
  rintro held _ rfl
  refine walks_bind (R := fun _ q' => q' = .counted (.user userId) held ∧
    held < maxActiveTokensPerUser) (walks_rejectIf trivial fun h => ⟨rfl, Nat.lt_of_not_le h⟩) ?_
  rintro _ _ ⟨rfl, hroom⟩
  refine walks_bind (query_counts (s := .insertToken _) ⟨held, rfl, hroom⟩) ?_
  intro tokenId _ _
  refine walks_bind (getTokenForUser_counts userId tokenId) ?_
  intro _ _ _
  exact walks_done trivial

theorem createSystemToken_counts (S : Secrets) (draw : Draw) (actorUserId : Int)
    (input : CreateSystemApiTokenInput) :
    Walks counting (fun _ _ => True) (createSystemToken S draw actorUserId input) q := by
  refine walks_bind check_counts ?_
  rintro name _ rfl
  refine walks_bind check_counts ?_
  rintro scopes _ rfl
  refine walks_bind (query_counts (s := .systemTokenCount) trivial) ?_
  rintro held _ rfl
  refine walks_bind (R := fun _ q' => q' = .counted .system held ∧ held < maxActiveSystemTokens)
    (walks_rejectIf trivial fun h => ⟨rfl, Nat.lt_of_not_le h⟩) ?_
  rintro _ _ ⟨rfl, hroom⟩
  refine walks_bind check_counts ?_
  rintro tokenCiphertext _ rfl
  refine walks_bind (query_counts (s := .insertSystemToken _) ⟨held, rfl, hroom⟩) ?_
  intro tokenId _ _
  refine walks_bind (getSystemToken_counts tokenId) ?_
  intro _ _ _
  exact walks_done trivial

theorem start_counts (S : Secrets) (request : Request) :
    Walks counting (fun _ q => counting.returns q) (start S request) (counting.begin request) := by
  cases request with
  | create draw userId input => exact createToken_counts S draw userId input
  | createSystem draw actorUserId input => exact createSystemToken_counts S draw actorUserId input
  | revoke userId tokenId =>
    refine walks_bind (query_counts trivial) ?_
    intro rows _ _
    refine walks_bind (R := fun _ _ => True) (walks_rejectIf trivial fun _ => trivial) ?_
    intro _ _ _
    refine walks_bind (getTokenForUser_counts userId tokenId) ?_
    intro _ _ _
    exact walks_done trivial
  | delete userId tokenId =>
    refine walks_bind (getTokenForUser_counts userId tokenId) ?_
    intro token _ _
    refine walks_bind (query_counts (s := .deleteToken userId tokenId) trivial) ?_
    intro _ _ _
    exact walks_done trivial
  | deleteSystem tokenId =>
    refine walks_bind (getSystemToken_counts tokenId) ?_
    intro token _ _
    refine walks_bind (query_counts (s := .deleteSystemToken tokenId) trivial) ?_
    intro _ _ _
    exact walks_done trivial

end Walking

/-! ## The number of tokens -/

section Numbers

variable {db : Db}

theorem perform_cases (m : Moment) (st : Statement) (db : Db) :
    (∃ e, perform m st db = (db, .error e)) ∨ perform m st db = execute m.now db st := by
  unfold perform
  cases m.fault with
  | some e => exact .inl ⟨e, rfl⟩
  | none => exact .inr rfl

/-- The pool that a statement inserts into. -/
def Statement.fills : Statement → Option Pool
  | insertToken row => some (.user row.userId)
  | insertSystemToken _ => some .system
  | _ => none

theorem filter_length_append {α : Type} (p : α → Bool) (l : List α) (a : α) :
    ((l ++ [a]).filter p).length ≤ (l.filter p).length + 1 := by
  rw [List.filter_append, List.length_append]
  have h := List.length_filter_le p [a]
  rw [List.length_singleton] at h
  omega

theorem held_insertToken (now : String) (row : ApiTokenRow) (pool : Pool) :
    (db.insertToken now row).1.held pool ≤ db.held pool + (if pool = .user row.userId then 1 else 0) := by
  unfold Db.insertToken
  split
  · exact Nat.le_add_right _ _
  · cases pool with
    | system => exact Nat.le_add_right _ _
    | user userId =>
      unfold Db.held Db.activeTokenCount
      dsimp only
      by_cases hsame : row.userId = userId
      · rw [if_pos (by rw [hsame])]
        exact filter_length_append _ _ _
      · rw [List.filter_append, List.filter_cons_of_neg (by simp [hsame])]
        simp

theorem held_insertSystemToken (now : String) (row : SystemTokenRow) (pool : Pool) :
    (db.insertSystemToken now row).1.held pool ≤ db.held pool + (if pool = .system then 1 else 0) := by
  unfold Db.insertSystemToken
  split
  · exact Nat.le_add_right _ _
  · cases pool with
    | user userId => exact Nat.le_add_right _ _
    | system =>
      unfold Db.held
      simp

/-- A row that is revoked counts no more; one that was revoked stays so. -/
theorem held_revokeToken (now : String) (userId tokenId : Int) (pool : Pool) :
    (db.revokeToken now userId tokenId).1.held pool ≤ db.held pool := by
  cases pool with
  | system => exact Nat.le_refl _
  | user id =>
    unfold Db.held Db.activeTokenCount Db.revokeToken updateWhere
    dsimp only
    rw [List.filter_map, List.length_map]
    apply List.Sublist.length_le
    apply List.monotone_filter_right
    intro t ht
    simp only [Function.comp_apply] at ht
    split at ht
    · rw [Bool.and_eq_true, beq_iff_eq, beq_iff_eq] at ht ⊢
      refine ⟨ht.1, ?_⟩
      have hrevoked := ht.2
      dsimp only at hrevoked
      split at hrevoked
      · assumption
      · exact hrevoked
    · exact ht

theorem held_deleteToken (userId tokenId : Int) (pool : Pool) :
    (db.deleteToken userId tokenId).held pool ≤ db.held pool := by
  cases pool with
  | system => exact Nat.le_refl _
  | user id => exact (List.filter_sublist.filter _).length_le

theorem held_deleteSystemToken (tokenId : Int) (pool : Pool) :
    (db.deleteSystemToken tokenId).held pool ≤ db.held pool := by
  cases pool with
  | user id => exact Nat.le_refl _
  | system => exact List.length_filter_le _ _

/-- A statement adds at most one token, to the pool that it fills. -/
theorem held_perform (m : Moment) (st : Statement) (pool : Pool) :
    (perform m st db).1.held pool ≤ db.held pool + (if st.fills = some pool then 1 else 0) := by
  rcases perform_cases m st db with ⟨e, heq⟩ | heq
  · rw [heq]
    exact Nat.le_add_right _ _
  rw [heq]
  have hle : ∀ {n : Nat}, n ≤ db.held pool → n ≤ db.held pool + (if st.fills = some pool then 1 else 0) :=
    fun h => Nat.le_trans h (Nat.le_add_right _ _)
  cases st with
  | insertToken row =>
    have h := @held_insertToken db m.now row pool
    unfold Statement.fills
    by_cases hpool : pool = .user row.userId
    · rw [if_pos hpool] at h
      rw [if_pos (congrArg some hpool.symm)]
      exact h
    · rw [if_neg hpool] at h
      exact hle h
  | insertSystemToken row =>
    have h := @held_insertSystemToken db m.now row pool
    unfold Statement.fills
    by_cases hpool : pool = .system
    · rw [if_pos hpool] at h
      rw [if_pos (congrArg some hpool.symm)]
      exact h
    · rw [if_neg hpool] at h
      exact hle h
  | revokeToken userId tokenId => exact hle (held_revokeToken m.now userId tokenId pool)
  | deleteToken userId tokenId => exact hle (held_deleteToken userId tokenId pool)
  | deleteSystemToken tokenId => exact hle (held_deleteSystemToken tokenId pool)
  | _ => exact hle (Nat.le_refl _)

end Numbers

/-! ## Runs -/

/-- Where a creation inserts, its pool holds no more tokens than it counted. -/
def CountHolds (qs : List Phase) (s : Server) : Turn Request Moment → Prop
  | .begin _ => True
  | .resume i _ => ∀ st pool held, nextStatement s i = some st → st.fills = some pool →
      qs[i]? = some (.counted pool held) → s.db.held pool ≤ held

/-- The phase in which a creation inserts. -/
theorem counted_of_fills {q : Phase} {st : Statement} {pool : Pool} (hallows : q.allows st)
    (hfills : st.fills = some pool) : ∃ held, q = .counted pool held ∧ held < pool.limit := by
  cases st with
  | insertToken row =>
    obtain ⟨held, hq, hroom⟩ := hallows
    obtain rfl := Option.some.inj hfills
    exact ⟨held, hq, hroom⟩
  | insertSystemToken row =>
    obtain ⟨held, hq, hroom⟩ := hallows
    obtain rfl := Option.some.inj hfills
    exact ⟨held, hq, hroom⟩
  | _ => cases hfills

/-- In every run of creations, revocations and deletions in which each insert finds no more tokens in
its pool than its call counted, no user has more than 100 tokens that are not revoked, and the system
no more than 100. -/
theorem token_limits_hold (S : Secrets) (db : Db) (h : ∀ pool, db.held pool ≤ pool.limit)
    (tr : List (Entry Server (Turn Request Moment) Unit)) (s : Server)
    (hrun : Run (serve perform (start S)) { db := db, calls := [] } tr s)
    (hok : MeetsFrom perform counting CountHolds [] tr) :
    (∀ userId, s.db.activeTokenCount userId ≤ 100) ∧ s.db.systemTokens.length ≤ 100 := by
  have hinv := serve_observed (G := counting) (C := CountHolds)
    (I := fun _ _ s => ∀ pool, s.db.held pool ≤ pool.limit) (start_counts S) h ?_ ?_ hrun hok
  · exact ⟨fun userId => hinv.1 (.user userId), hinv.1 .system⟩
  · exact fun _ _ _ _ hbound _ => hbound
  · intro tr qs s i m q st k hbound _ hget hq hallows hc pool
    have hstep := @held_perform s.db m st pool
    by_cases hfills : st.fills = some pool
    · have hnext : nextStatement s i = some st := by rw [nextStatement, hget]
      obtain ⟨held, rfl, hroom⟩ := counted_of_fills hallows hfills
      have hstill := hc st pool held hnext hfills hq
      rw [if_pos hfills] at hstep
      exact Nat.le_trans hstep (by omega)
    · rw [if_neg hfills] at hstep
      exact Nat.le_trans hstep (hbound pool)

/-- The text itself, cut to the length of a digest. -/
def plainDigest (b : Bytes) : Bytes := ((b ++ zeros 43).drop 11).take 32

theorem plainDigest_length (b : Bytes) : (plainDigest b).length = 32 := by
  simp [plainDigest, zeros]

/-- A key, a cipher and a hash to evaluate with. -/
def plainSecrets : Secrets where
  prims := { aead := .plain, storageKey := fun _ => .fill 32 0 }
  sha256 := { hash := plainDigest, length_hash := plainDigest_length }
  masterKey := "sixteen characters"

/-- The token whose bytes are all the same. -/
def drawOf (n : Nat) : Draw :=
  ⟨.fill 32 (UInt8.ofNat n), .fill 12 0⟩

def cliInput : CreateApiTokenInput := ⟨"cli", ["project:read"], "", ""⟩

/-- A user with one token short of the limit. -/
def almostFull : Db where
  users := [⟨1, "alice", "Alice", true, false⟩]
  apiTokens := (List.range 99).map fun n =>
    { id := n, userId := 1, name := "cli", tokenHash := toString n, tokenSuffix := "",
      tokenCiphertext := "", scopes := ["project:read"], projectScope := "all", expiresAt := "",
      revokedAt := "", lastUsedAt := "", createdAt := "", updatedAt := "" }
  nextApiToken := 99
  systemTokens := []
  nextSystemToken := 1

theorem almostFull_held (pool : Pool) : almostFull.held pool ≤ pool.limit := by
  cases pool with
  | system => exact Nat.zero_le _
  | user userId =>
    refine Nat.le_trans (List.length_filter_le _ _) ?_
    change almostFull.apiTokens.length ≤ 100
    decide

def noon : Moment := ⟨"2026-01-05 12:00:00", none⟩

/-- One creation after the other: the second is refused. -/
def createdInTurn : List (Turn Request Moment) :=
  .begin (.create (drawOf 1) 1 cliInput) :: List.replicate 3 (.resume 0 noon) ++
    [.begin (.create (drawOf 2) 1 cliInput), .resume 1 noon]

/-- Both creations count before either inserts. -/
def createdAtOnce : List (Turn Request Moment) :=
  [.begin (.create (drawOf 1) 1 cliInput), .begin (.create (drawOf 2) 1 cliInput), .resume 0 noon,
    .resume 1 noon, .resume 0 noon, .resume 1 noon]

def countHolds (qs : List Phase) (s : Server) : Turn Request Moment → Bool
  | .begin _ => true
  | .resume i _ =>
    match qs[i]? with
    | some (.counted pool held) => decide (s.db.held pool ≤ held) ||
        (match nextStatement s i with
          | some st => st.fills.isNone
          | none => true)
    | _ => true

theorem countHolds_of_test (qs : List Phase) (s : Server) (e : Turn Request Moment)
    (h : countHolds qs s e = true) : CountHolds qs s e := by
  cases e with
  | begin request => trivial
  | resume i m =>
    intro st pool held hst hfills hq
    unfold countHolds at h
    dsimp only at h
    rw [hq] at h
    dsimp only at h
    rw [hst, Bool.or_eq_true, decide_eq_true_eq] at h
    rcases h with hle | hnone
    · exact hle
    · dsimp only at hnone
      rw [hfills] at hnone
      cases hnone

theorem second_creation_is_refused :
    ∃ tr s, exec (serve perform (start plainSecrets)) ({ db := almostFull, calls := [] } : Server)
        createdInTurn = some (tr, s) ∧
      s.db.apiTokens.length = 100 ∧ ∀ userId, s.db.activeTokenCount userId ≤ 100 := by
  obtain ⟨r, hr⟩ : ∃ r, exec (serve perform (start plainSecrets))
      ({ db := almostFull, calls := [] } : Server) createdInTurn = some r := ⟨_, rfl⟩
  have hlength : (exec (serve perform (start plainSecrets))
      ({ db := almostFull, calls := [] } : Server) createdInTurn).map
        (fun r => r.2.db.apiTokens.length) = some 100 := by
    decide +kernel
  rw [hr] at hlength
  have hok : MeetsFrom perform counting CountHolds [] r.1 :=
    meetsFrom_exec hr countHolds_of_test (by decide +kernel)
  exact ⟨r.1, r.2, hr, Option.some.inj hlength,
    (token_limits_hold plainSecrets almostFull almostFull_held r.1 r.2 (run_of_exec hr) hok).1⟩

theorem token_limit_can_be_passed :
    (∀ pool, almostFull.held pool ≤ pool.limit) ∧
      ∃ tr s, Run (serve perform (start plainSecrets)) ({ db := almostFull, calls := [] } : Server)
          tr s ∧ s.db.activeTokenCount 1 = 101 := by
  refine ⟨almostFull_held, ?_⟩
  obtain ⟨r, hr⟩ : ∃ r, exec (serve perform (start plainSecrets))
      ({ db := almostFull, calls := [] } : Server) createdAtOnce = some r := ⟨_, rfl⟩
  have hcount : (exec (serve perform (start plainSecrets))
      ({ db := almostFull, calls := [] } : Server) createdAtOnce).map
        (fun r => r.2.db.activeTokenCount 1) = some 101 := by
    decide +kernel
  rw [hr] at hcount
  exact ⟨r.1, r.2, run_of_exec hr, Option.some.inj hcount⟩

end Tokens
end Yuance
