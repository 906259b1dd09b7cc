import Yuance.Lib.Phases
import Yuance.Lib.Table
import Yuance.Platform.Crypto

/-!
# Yuance.Platform.MasterKey

The file master key of `api/src/platform/config.rs`. A start without a configured key reads it from
the key file, and draws and writes one if the read fails for whatever reason. The starts of one server
share the data directory; the other settings enter by whether they pass their checks, and the
permissions of the key file are left out but for the call that sets them.

* `resolveFileMasterKey`: reading, drawing, writing and protecting the file, one step each.
* `NoneHolds`: a start writes the file only where no other start has a key.
* `master_key_never_changes`: all starts that return have the same key.
-/

namespace Yuance
namespace Platform
namespace MasterKey

open Lib

/-! ## The file -/

/-- The data directory. -/
structure Disk where
  secretsDir : Bool
  keyFile : Option Bytes
  deriving DecidableEq, Repr

/-- A call that fails. A write that fails may have opened the file and written some bytes. -/
structure Fault where
  error : String
  written : Option Nat
  deriving DecidableEq, Repr

abbrev Moment := Option Fault

inductive Step where
  | readToString
  | createDirAll
  | write (content : String)
  | setPermissions
  deriving DecidableEq, Repr

abbrev Step.Answer : Step → Type
  | readToString => Option String
  | createDirAll => Unit
  | write _ => Unit
  | setPermissions => Unit

/-- `key_path.display()` and `secrets_dir.display()`. -/
structure Paths where
  secretsDir : String
  keyPath : String

def Paths.mkdirFailed (paths : Paths) (error : String) : AppError :=
  .config ("创建文件主密钥目录失败（" ++ paths.secretsDir ++ "）：" ++ error)

def Paths.writeFailed (paths : Paths) (error : String) : AppError :=
  .config ("写入文件主密钥失败（" ++ paths.keyPath ++ "）：" ++ error)

def Paths.protectFailed (paths : Paths) (error : String) : AppError :=
  .config ("设置文件主密钥权限失败（" ++ paths.keyPath ++ "）：" ++ error)

def Paths.invalid (paths : Paths) : AppError :=
  .config ("文件主密钥文件 " ++ paths.keyPath ++ " 内容无效，请检查或重新初始化")

/-- What a write that fails leaves of the file. -/
def Disk.torn (disk : Disk) (content : String) : Option Nat → Disk
  | none => disk
  | some written => { disk with keyFile := some ((utf8 content).take written) }

def perform (paths : Paths) (m : Moment) (s : Step) (disk : Disk) :
    Disk × Except AppError s.Answer :=
  match s, m with
  | .readToString, none => (disk, .ok (disk.keyFile.bind fromUtf8))
  -- the reason why a read fails is not looked at
  | .readToString, some _ => (disk, .ok none)
  | .createDirAll, none => ({ disk with secretsDir := true }, .ok ())
  | .createDirAll, some fault => (disk, .error (paths.mkdirFailed fault.error))
  | .write content, none =>
    if disk.secretsDir then ({ disk with keyFile := some (utf8 content) }, .ok ())
    else (disk, .error (paths.writeFailed "No such file or directory"))
  | .write content, some fault =>
    (disk.torn content fault.written, .error (paths.writeFailed fault.error))
  | .setPermissions, none => (disk, .ok ())
  | .setPermissions, some fault => (disk, .error (paths.protectFailed fault.error))

/-! ## A start -/

abbrev Task (α : Type) := Call Step Step.Answer AppError α

def attempt (s : Step) : Task s.Answer := Call.make s

def fileMasterKeyMinLen : Nat := 16

def resolveFileMasterKey (paths : Paths) (keyBytes : FixedBytes 32) (environment envValue : String) :
    Task String :=
  let explicit := trim envValue
  if explicit ≠ "" then do
    Call.rejectIf (byteLen explicit < fileMasterKeyMinLen)
      (.config "YUANCE_FILE_MASTER_KEY 长度不能少于 16 个字符")
    pure explicit
  else do
    let content ← attempt .readToString
    match content with
    | some content =>
      Call.rejectIf (byteLen (trim content) < fileMasterKeyMinLen) paths.invalid
      pure (trim content)
    | none =>
      if environment = "test" then pure "test-file-master-key-that-is-long-enough"
      else do
        let generated := Base64.encode Base64.standard keyBytes.val
        attempt .createDirAll
        attempt (.write generated)
        attempt .setPermissions
        pure generated

/-- The environment of a start, what it draws, and what the checks of its other settings say. -/
structure Launch where
  httpAddr : Except AppError Unit
  environment : Option String
  fileMasterKey : Option String
  keyBytes : FixedBytes 32
  deviceSessions : Except AppError Unit

def normalizeEnvironment (value : String) : String := toAsciiLowercase (trim value)

def Launch.environmentName (launch : Launch) : String :=
  normalizeEnvironment (launch.environment.getD "development")

/-- `Settings::from_env`, of which the file master key is kept. -/
def fromEnv (paths : Paths) (launch : Launch) : Task String := do
  Call.ofExcept launch.httpAddr
  let fileMasterKey ← resolveFileMasterKey paths launch.keyBytes launch.environmentName
    (launch.fileMasterKey.getD "")
  Call.rejectIf (trim launch.environmentName = "") (.config "YUANCE_ENV 不能为空")
  Call.ofExcept launch.deviceSessions
  pure fileMasterKey

/-- A start without a configured key, outside the tests. -/
structure KeylessLaunch extends Launch where
  unset : toLaunch.fileMasterKey = none
  untested : toLaunch.environmentName ≠ "test"

abbrev Server := Serving Step Step.Answer AppError String Disk

def start (paths : Paths) (launch : KeylessLaunch) : Task String := fromEnv paths launch.toLaunch

/-! ## What a start holds -/

inductive Phase where
  /-- It has not read the file. -/
  | fresh
  /-- It could not read the file. -/
  | missing
  /-- It has read the key, or written it. -/
  | holds (key : String)
  | ended
  deriving DecidableEq, Repr

def Phase.next (q : Phase) (s : Step) (answer : Except AppError s.Answer) : Phase :=
  match s, answer with
  | .readToString, .ok (some content) => .holds (trim content)
  | .readToString, .ok none => .missing
  | .write content, .ok _ => .holds content
  | _, .ok _ => q
  | _, .error _ => .ended

def Phase.allows (q : Phase) : Step → Prop
  | .readToString => q = .fresh
  | .createDirAll => q = .missing
  | .write content => q = .missing ∧ trim content = content
  | .setPermissions => ∃ key, q = .holds key

def keeping : Guide Step Step.Answer AppError KeylessLaunch Phase where
  begin := fun _ => .fresh
  next := Phase.next
  allows := Phase.allows
  fails := fun _ => True
  returns := fun _ => True

section Walking

variable {q : Phase}

theorem attempt_keeps {s : Step} (hallows : q.allows s) :
    Walks keeping (fun a q' => q' = q.next s (.ok a)) (attempt s) q :=
  ⟨hallows, fun _ => trivial, fun _ => rfl⟩

theorem resolveFileMasterKey_keeps (paths : Paths) (keyBytes : FixedBytes 32) {environment : String}
    (htest : environment ≠ "test") :
    Walks keeping (fun key q => q = .holds key)
      (resolveFileMasterKey paths keyBytes environment "") .fresh := by
  unfold resolveFileMasterKey
  rw [if_neg (by decide)]
  refine walks_bind (attempt_keeps (s := .readToString) rfl) ?_
  rintro content _ rfl
  cases content with
  | some content =>
    refine walks_bind (R := fun _ q => q = .holds (trim content))
      (walks_rejectIf trivial fun _ => rfl) ?_
    rintro _ _ rfl
    exact walks_done rfl
  | none =>
    dsimp only
    rw [if_neg htest]
    refine walks_bind (attempt_keeps (s := .createDirAll) rfl) ?_
    rintro _ _ rfl
    refine walks_bind (attempt_keeps (s := .write _) ⟨rfl, Base64.trim_encode _⟩) ?_
    rintro _ _ rfl
    refine walks_bind (attempt_keeps (s := .setPermissions) ⟨_, rfl⟩) ?_
    rintro _ _ rfl
    exact walks_done rfl

theorem start_keeps (paths : Paths) (launch : KeylessLaunch) :
    Walks keeping (fun key q => q = .holds key) (start paths launch) (keeping.begin launch) := by
  refine walks_bind (R := fun _ q => q = .fresh) (walks_check trivial fun _ _ => rfl) ?_
  rintro _ _ rfl
  rw [launch.unset]
  refine walks_bind (resolveFileMasterKey_keeps paths _ launch.untested) ?_
  rintro key _ rfl
  refine walks_bind (R := fun _ q => q = .holds key) (walks_rejectIf trivial fun _ => rfl) ?_
  rintro _ _ rfl
  refine walks_bind (R := fun _ q => q = .holds key) (walks_check trivial fun _ _ => rfl) ?_
  rintro _ _ rfl
  exact walks_done rfl

end Walking

/-! ## Runs -/

/-- The key that is in the file. -/
def Disk.key (disk : Disk) : Option String := (disk.keyFile.bind fromUtf8).map trim

/-- A start writes the file only where no other start has a key. -/
def NoneHolds (qs : List Phase) (s : Server) : Turn KeylessLaunch Moment → Prop
  | .begin _ => True
  | .resume i _ => ∀ content, nextStatement s i = some (.write content) →
      ∀ (j : Nat) key, j ≠ i → qs[j]? ≠ some (.holds key)

/-- What a start holds is in the file. -/
def Agree (qs : List Phase) (disk : Disk) : Prop :=
  ∀ (i : Nat) key, qs[i]? = some (.holds key) → disk.key = some key

section Steps

variable {paths : Paths} {qs : List Phase} {disk : Disk} {i : Nat} {q q' : Phase}

theorem Agree.begin (h : Agree qs disk) : Agree (qs ++ [.fresh]) disk := by
  intro i key hi
  by_cases hlt : i < qs.length
  · rw [List.getElem?_append_left hlt] at hi
    exact h i key hi
  · rw [List.getElem?_append_right (Nat.le_of_not_lt hlt)] at hi
    cases List.mem_singleton.mp (List.mem_of_getElem? hi)

/-- A step of the `i`-th start. -/
theorem agree_set (hothers : ∀ (j : Nat) key, j ≠ i → qs[j]? = some (.holds key) → disk.key = some key)
    (hkey : ∀ key, q' = .holds key → disk.key = some key) : Agree (qs.set i q') disk := by
  intro j key hj
  rcases set_cases hj with ⟨-, hnew⟩ | ⟨hji, hold⟩
  · exact hkey key hnew.symm
  · exact hothers j key hji hold

/-- A step that leaves the file alone. -/
theorem Agree.set (h : Agree qs disk) (hkey : ∀ key, q' = .holds key → disk.key = some key) :
    Agree (qs.set i q') disk :=
  agree_set (fun j key _ => h j key) hkey

theorem Agree.resume {s : Server} (h : Agree qs s.db) {m : Moment} {st : Step}
    {k : st.Answer → Task String} (hget : s.calls[i]? = some (.ask st k)) (hq : qs[i]? = some q)
    (hallows : q.allows st) (hc : NoneHolds qs s (.resume i m)) :
    Agree (qs.set i (q.next st (perform paths m st s.db).2)) (perform paths m st s.db).1 := by
  have held : ∀ key, q = .holds key → s.db.key = some key := by
    rintro key rfl
    exact h i key hq
  cases st with
  | readToString =>
    cases m with
    | some fault => exact h.set fun key hkey => (by cases hkey)
    | none =>
      refine h.set fun key hkey => ?_
      unfold Disk.key
      change Phase.next q .readToString (.ok (s.db.keyFile.bind fromUtf8)) = .holds key at hkey
      cases hcontent : s.db.keyFile.bind fromUtf8 with
      | none =>
        rw [hcontent] at hkey
        cases hkey
      | some content =>
        rw [hcontent] at hkey
        cases hkey
        rfl
  | createDirAll =>
    cases m with
    | some fault => exact h.set fun key hkey => (by cases hkey)
    | none =>
      have hsame : Agree qs { s.db with secretsDir := true } := h
      exact hsame.set held
  | setPermissions =>
    cases m with
    | some fault => exact h.set fun key hkey => (by cases hkey)
    | none => exact h.set held
  | write content =>
    have halone := hc content (by rw [nextStatement, hget])
    have written : ∀ {disk : Disk} {q' : Phase}, (∀ key, q' = .holds key → disk.key = some key) →
        Agree (qs.set i q') disk :=
      agree_set fun j key hji hj => absurd hj (halone j key hji)
    cases m with
    | some fault => exact written fun key hkey => (by cases hkey)
    | none =>
      by_cases hdir : s.db.secretsDir
      · have hwritten : perform paths none (.write content) s.db =
            ({ s.db with keyFile := some (utf8 content) }, .ok ()) := if_pos hdir
        rw [hwritten]
        refine written fun key hkey => ?_
        cases hkey
        unfold Disk.key
        rw [Option.bind_some, fromUtf8_utf8, Option.map_some, hallows.2]
      · have hfailed : perform paths none (.write content) s.db =
            (s.db, .error (paths.writeFailed "No such file or directory")) := if_neg hdir
        rw [hfailed]
        exact written fun key hkey => (by cases hkey)

end Steps

/-- From any data directory on, in every run of starts in which a start writes the key file only where
no other start has a key, all starts that return have the same key. -/
theorem master_key_never_changes (paths : Paths) (disk : Disk)
    (tr : List (Entry Server (Turn KeylessLaunch Moment) Unit)) (s : Server)
    (hrun : Run (serve (perform paths) (start paths)) { db := disk, calls := [] } tr s)
    (hok : MeetsFrom (perform paths) keeping NoneHolds [] tr) (i j : Nat) (key key' : String)
    (hi : s.calls[i]? = some (.done key)) (hj : s.calls[j]? = some (.done key')) : key = key' := by
  obtain ⟨hagree, hphases⟩ := serve_observed (G := keeping) (C := NoneHolds)
    (I := fun _ qs s => Agree qs s.db) (start_keeps paths) (fun i key h => (by cases h))
    (fun _ _ _ _ h _ => h.begin)
    (fun tr qs s i m q st k h _ hget hq hallows hc => h.resume hget hq hallows hc) hrun hok
  obtain ⟨q, hq, rfl⟩ := hphases.returned hi
  obtain ⟨q', hq', rfl⟩ := hphases.returned hj
  have hkey := hagree i key hq
  rw [hagree j key' hq'] at hkey
  exact (Option.some.inj hkey).symm

def drawn (n : Nat) : FixedBytes 32 := .fill 32 (UInt8.ofNat n)

def launchWith (n : Nat) : KeylessLaunch where
  httpAddr := .ok ()
  environment := some "production"
  fileMasterKey := none
  keyBytes := drawn n
  deviceSessions := .ok ()
  unset := rfl
  untested := by
    change normalizeEnvironment "production" ≠ "test"
    decide

def dataPaths : Paths := ⟨"data/secrets", "data/secrets/file_master_key"⟩

def emptyDisk : Disk := ⟨false, none⟩

/-- The first start draws a key; of two more, one reads it and one is stopped. -/
def startedInTurn : List (Turn KeylessLaunch Moment) :=
  .begin (launchWith 1) :: List.replicate 4 (.resume 0 none) ++
    [.begin (launchWith 2), .resume 1 none, .begin (launchWith 3)]

/-- The second start cannot read the file that the first has written. -/
def readFails : List (Turn KeylessLaunch Moment) :=
  .begin (launchWith 1) :: List.replicate 4 (.resume 0 none) ++
    [.begin (launchWith 2), .resume 1 (some ⟨"Too many open files", none⟩)] ++
    List.replicate 3 (.resume 1 none)

/-- Both starts look for the file before either writes it. -/
def startedAtOnce : List (Turn KeylessLaunch Moment) :=
  [.begin (launchWith 1), .begin (launchWith 2), .resume 0 none, .resume 1 none] ++
    List.replicate 3 (.resume 0 none) ++ List.replicate 3 (.resume 1 none)

def noneHolds (qs : List Phase) (s : Server) : Turn KeylessLaunch Moment → Bool
  | .begin _ => true
  | .resume i _ =>
    match nextStatement s i with
    | some (.write _) => (qs.eraseIdx i).all fun q =>
        match q with
        | .holds _ => false
        | _ => true
    | _ => true

theorem noneHolds_of_test (qs : List Phase) (s : Server) (e : Turn KeylessLaunch Moment)
    (h : noneHolds qs s e = true) : NoneHolds qs s e := by
  cases e with
  | begin launch => trivial
  | resume i m =>
    intro content hst j key hji hj
    unfold noneHolds at h
    dsimp only at h
    rw [hst] at h
    have hmem : Phase.holds key ∈ qs.eraseIdx i := List.mem_eraseIdx_iff_getElem?.mpr ⟨j, hji, hj⟩
    have hnot := List.all_eq_true.mp h _ hmem
    cases hnot

theorem later_start_reads_the_key :
    ∃ tr s key, exec (serve (perform dataPaths) (start dataPaths))
        ({ db := emptyDisk, calls := [] } : Server) startedInTurn = some (tr, s) ∧
      s.calls[0]? = some (.done key) ∧ s.calls[1]? = some (.done key) := by
  obtain ⟨r, hr⟩ : ∃ r, exec (serve (perform dataPaths) (start dataPaths))
      ({ db := emptyDisk, calls := [] } : Server) startedInTurn = some r := ⟨_, rfl⟩
  have hdone : (exec (serve (perform dataPaths) (start dataPaths))
      ({ db := emptyDisk, calls := [] } : Server) startedInTurn).map
        (fun r => (((r.2.calls[0]?).bind Call.result).isSome,
          ((r.2.calls[1]?).bind Call.result).isSome)) = some (true, true) := by
    decide +kernel
  rw [hr] at hdone
  obtain ⟨hfirst, hsecond⟩ := Prod.mk.inj (Option.some.inj hdone)
  obtain ⟨key, hfirst⟩ := Option.isSome_iff_exists.mp hfirst
  obtain ⟨key', hsecond⟩ := Option.isSome_iff_exists.mp hsecond
  have hok : MeetsFrom (perform dataPaths) keeping NoneHolds [] r.1 :=
    meetsFrom_exec hr noneHolds_of_test (by decide +kernel)
  obtain rfl := master_key_never_changes dataPaths emptyDisk r.1 r.2 (run_of_exec hr) hok 0 1 key key'
    (done_of_result hfirst) (done_of_result hsecond)
  exact ⟨r.1, r.2, key, hr, done_of_result hfirst, done_of_result hsecond⟩

/-- Two starts of a run whose results differ. -/
theorem keys_differ {disk : Disk} {events : List (Turn KeylessLaunch Moment)}
    (h : (exec (serve (perform dataPaths) (start dataPaths)) ({ db := disk, calls := [] } : Server)
        events).map (fun r => (((r.2.calls[0]?).bind Call.result).isSome,
          ((r.2.calls[1]?).bind Call.result).isSome,
          decide ((r.2.calls[0]?).bind Call.result = (r.2.calls[1]?).bind Call.result))) =
      some (true, true, false)) :
    ∃ tr s key key', exec (serve (perform dataPaths) (start dataPaths))
        ({ db := disk, calls := [] } : Server) events = some (tr, s) ∧
      s.calls[0]? = some (.done key) ∧ s.calls[1]? = some (.done key') ∧ key ≠ key' := by
  obtain ⟨r, hr, hfacts⟩ := Option.map_eq_some_iff.mp h
  obtain ⟨hfirst, hrest⟩ := Prod.mk.inj hfacts
  obtain ⟨hsecond, hne⟩ := Prod.mk.inj hrest
  obtain ⟨key, hfirst⟩ := Option.isSome_iff_exists.mp hfirst
  obtain ⟨key', hsecond⟩ := Option.isSome_iff_exists.mp hsecond
  rw [hfirst, hsecond, decide_eq_false_iff_not] at hne
  exact ⟨r.1, r.2, key, key', hr, done_of_result hfirst, done_of_result hsecond,
    fun h => hne (congrArg some h)⟩

/-- A key that is in use is replaced: when its file cannot be read, and when two starts overlap. -/
theorem master_key_can_change :
    (∃ tr s key key', exec (serve (perform dataPaths) (start dataPaths))
        ({ db := emptyDisk, calls := [] } : Server) readFails = some (tr, s) ∧
      s.calls[0]? = some (.done key) ∧ s.calls[1]? = some (.done key') ∧ key ≠ key') ∧
    ∃ tr s key key', exec (serve (perform dataPaths) (start dataPaths))
        ({ db := emptyDisk, calls := [] } : Server) startedAtOnce = some (tr, s) ∧
      s.calls[0]? = some (.done key) ∧ s.calls[1]? = some (.done key') ∧ key ≠ key' :=
  ⟨keys_differ (by decide +kernel), keys_differ (by decide +kernel)⟩

end MasterKey
end Platform
end Yuance
