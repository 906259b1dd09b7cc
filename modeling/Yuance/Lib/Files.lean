import Mathlib

/-!
# Yuance.Lib.Files

Programs that work on the files of one directory by calls that may fail, and that may die at any
call. A program takes its fate from a list: the call takes full effect, it fails without effect, or
the process dies just before or just after the effect. Behind the end of the list every call is done.
`ENOENT` and `EEXIST` are told of a file that is missing or there; a call that fails by its fate tells
another error.

* `wp`: what holds behind a program that returns, that throws, and that dies.
* `wp_bind`, `wp_catching`, `wp_lastly`, `wp_withLocals`: the rules for each construct.
* `wp_call`: one call, under every fate.
* `Keeps`: an invariant of variables and files that no outcome breaks.
-/

namespace Lib

inductive Code where
  | enoent
  | eexist
  | other
  deriving DecidableEq, Repr

structure File where
  text : String
  mode : Nat
  deriving DecidableEq, Repr

/-- The files of the directory by name. -/
abbrev Disk := String → Option File

def Disk.set (d : Disk) (name : String) (file : Option File) : Disk :=
  fun n => if n = name then file else d n

@[simp] theorem Disk.set_same (d : Disk) (name : String) (file : Option File) :
    d.set name file name = file := if_pos rfl

theorem Disk.set_other {d : Disk} {name n : String} {file : Option File} (h : n ≠ name) :
    d.set name file n = d n := if_neg h

theorem ne_of_longer {s t : String} (h : t.toList.length < s.toList.length) : s ≠ t := by
  rintro rfl
  exact lt_irrefl _ h

theorem append_ne_self {s t : String} (h : t ≠ "") : s ≠ s ++ t := by
  apply Ne.symm
  apply ne_of_longer
  have : t.toList ≠ [] := fun h' => h (String.toList_inj.mp h')
  have := List.length_pos_iff.mpr this
  rw [String.toList_append, List.length_append]
  omega

/-- Names that end in different characters. -/
theorem ne_of_ends {s t e e' : String} (c c' : Char) (h : e.toList.getLast? = some c)
    (h' : e'.toList.getLast? = some c') (hc : c ≠ c') : s ++ e ≠ t ++ e' := by
  intro heq
  have hl := congrArg (fun s => s.toList.getLast?) heq
  simp only [String.toList_append, List.getLast?_append, h, h', Option.some_or,
    Option.some.injEq] at hl
  exact hc hl

/-- What becomes of a call. -/
inductive Fate where
  | done
  | fails
  | dies (after : Bool)
  deriving DecidableEq, Repr

structure World (σ : Type) where
  disk : Disk
  fates : List Fate
  vars : σ

inductive Outcome (α : Type) where
  | value (a : α)
  | thrown (code : Code)
  | dead

/-- A program with the local variables `σ`. -/
def Prog (σ α : Type) : Type := World σ → Outcome α × World σ

/-- The effect of a call that is not disturbed. -/
abbrev Op (α : Type) := Disk → Except Code (α × Disk)

namespace Prog

variable {σ τ α β : Type}

def pure (a : α) : Prog σ α := fun w => (.value a, w)

def bind (p : Prog σ α) (f : α → Prog σ β) : Prog σ β := fun w =>
  match p w with
  | (.value a, w) => f a w
  | (.thrown code, w) => (.thrown code, w)
  | (.dead, w) => (.dead, w)

instance : Monad (Prog σ) where
  pure := Prog.pure
  bind := Prog.bind

def throw (code : Code) : Prog σ α := fun w => (.thrown code, w)

/-- `try { p } catch (error) { handler(error) }`. -/
def catching (p : Prog σ α) (handler : Code → Prog σ α) : Prog σ α := fun w =>
  match p w with
  | (.value a, w) => (.value a, w)
  | (.thrown code, w) => handler code w
  | (.dead, w) => (.dead, w)

/-- `try { p } finally { last }`. -/
def lastly (p : Prog σ α) (last : Prog σ Unit) : Prog σ α := fun w =>
  match p w with
  | (.dead, w) => (.dead, w)
  | (r, w) =>
    match last w with
    | (.value _, w) => (r, w)
    | (.thrown code, w) => (.thrown code, w)
    | (.dead, w) => (.dead, w)

/-- `if (condition) { p }`. -/
def guarded (condition : Bool) (p : Prog σ Unit) : Prog σ Unit :=
  if condition then p else Prog.pure ()

def vars : Prog σ σ := fun w => (.value w.vars, w)

def assign (f : σ → σ) : Prog σ Unit := fun w => (.value (), { w with vars := f w.vars })

/-- A function body with local variables of its own. -/
def withLocals (init : τ) (p : Prog τ α) : Prog σ α := fun w =>
  match p { disk := w.disk, fates := w.fates, vars := init } with
  | (r, v) => (r, { disk := v.disk, fates := v.fates, vars := w.vars })

def perform (op : Op α) : Prog σ α := fun w =>
  match op w.disk with
  | .ok (a, d) => (.value a, { w with disk := d })
  | .error code => (.thrown code, w)

/-- The files behind a call that the process did not survive. -/
def effect (op : Op α) (d : Disk) : Disk :=
  match op d with
  | .ok (_, d) => d
  | .error _ => d

def call (op : Op α) : Prog σ α := fun w =>
  match w.fates with
  | [] => perform op w
  | .done :: fates => perform op { w with fates := fates }
  | .fails :: fates => (.thrown .other, { w with fates := fates })
  | .dies after :: fates =>
    (.dead, { w with disk := if after then effect op w.disk else w.disk, fates := fates })

end Prog

namespace Fs

variable {σ : Type}

open Prog

/-- A call without an effect on the files: `mkdir`, `sync`, `close`, a call on the directory. -/
def quiet : Prog σ Unit := call fun d => .ok ((), d)

def stat (name : String) : Prog σ File := call fun d =>
  match d name with
  | some file => .ok (file, d)
  | none => .error .enoent

def readFile (name : String) : Prog σ String := call fun d =>
  match d name with
  | some file => .ok (file.text, d)
  | none => .error .enoent

/-- `fs.open(name, "wx", mode)`. -/
def openExclusive (name : String) (mode : Nat) : Prog σ Unit := call fun d =>
  match d name with
  | some _ => .error .eexist
  | none => .ok ((), d.set name (some { text := "", mode := mode }))

/-- `fs.open(name, "w", mode)`. -/
def openTruncate (name : String) (mode : Nat) : Prog σ Unit := call fun d =>
  match d name with
  | some file => .ok ((), d.set name (some { file with text := "" }))
  | none => .ok ((), d.set name (some { text := "", mode := mode }))

/-- `fs.open(name, "r")`. -/
def openRead (name : String) : Prog σ Unit := call fun d =>
  match d name with
  | some _ => .ok ((), d)
  | none => .error .enoent

/-- `handle.writeFile(text)` of a file opened empty. -/
def writeFile (name text : String) : Prog σ Unit := call fun d =>
  match d name with
  | some file => .ok ((), d.set name (some { file with text := text }))
  | none => .ok ((), d)

/-- `handle.chmod(mode)`. -/
def fchmod (name : String) (mode : Nat) : Prog σ Unit := call fun d =>
  match d name with
  | some file => .ok ((), d.set name (some { file with mode := mode }))
  | none => .ok ((), d)

def chmod (name : String) (mode : Nat) : Prog σ Unit := call fun d =>
  match d name with
  | some file => .ok ((), d.set name (some { file with mode := mode }))
  | none => .error .enoent

/-- `fs.copyFile(source, target, COPYFILE_EXCL)`. -/
def copyFile (source target : String) : Prog σ Unit := call fun d =>
  match d source, d target with
  | none, _ => .error .enoent
  | some _, some _ => .error .eexist
  | some file, none => .ok ((), d.set target (some file))

def rename (source target : String) : Prog σ Unit := call fun d =>
  match d source with
  | none => .error .enoent
  | some file => .ok ((), (d.set source none).set target (some file))

def unlink (name : String) : Prog σ Unit := call fun d =>
  match d name with
  | none => .error .enoent
  | some _ => .ok ((), d.set name none)

/-- `try { await fs.stat(name); return true; }`, with `false` for a file that is not there. -/
def pathExists (name : String) : Prog σ Bool :=
  catching (stat name >>= fun _ => Prog.pure true) fun code =>
    if code = .enoent then Prog.pure false else Prog.throw code

/-- `unlink`, where a file that is not there is no error. -/
def unlinkIfExists (name : String) : Prog σ Unit :=
  catching (unlink name) fun code => if code = .enoent then Prog.pure () else Prog.throw code

/-- `promise.catch(() => {})`. -/
def ignore (p : Prog σ Unit) : Prog σ Unit := catching p fun _ => Prog.pure ()

end Fs

section Rules

open Prog

variable {σ τ α β : Type}

/-- Behind the program: `Q` where it returns, `E` where it throws, `D` where it dies. -/
def wp (p : Prog σ α) (Q : α → World σ → Prop) (E : Code → World σ → Prop) (D : Disk → Prop)
    (w : World σ) : Prop :=
  match p w with
  | (.value a, w) => Q a w
  | (.thrown code, w) => E code w
  | (.dead, w) => D w.disk

variable {Q Q' : α → World σ → Prop} {E E' : Code → World σ → Prop} {D D' : Disk → Prop}
  {w : World σ}

theorem wp_mono {p : Prog σ α} (h : wp p Q E D w) (hq : ∀ a v, Q a v → Q' a v)
    (he : ∀ c v, E c v → E' c v) (hd : ∀ d, D d → D' d) : wp p Q' E' D' w := by
  unfold wp at h ⊢
  split
  · rename_i heq
    rw [heq] at h
    exact hq _ _ h
  · rename_i heq
    rw [heq] at h
    exact he _ _ h
  · rename_i heq
    rw [heq] at h
    exact hd _ h

theorem wp_pure {a : α} (h : Q a w) : wp (Pure.pure a : Prog σ α) Q E D w := h

theorem wp_throw {code : Code} (h : E code w) : wp (Prog.throw code : Prog σ α) Q E D w := h

theorem wp_assign {f : σ → σ} {Q : Unit → World σ → Prop} (h : Q () { w with vars := f w.vars }) :
    wp (assign f) Q E D w := h

theorem wp_bind {p : Prog σ β} {f : β → Prog σ α}
    (h : wp p (fun b v => wp (f b) Q E D v) E D w) : wp (p >>= f) Q E D w := by
  show wp (Prog.bind p f) Q E D w
  unfold wp at h ⊢
  unfold Prog.bind
  split at h <;> simp_all

theorem wp_catching {p : Prog σ α} {handler : Code → Prog σ α}
    (h : wp p Q (fun c v => wp (handler c) Q E D v) D w) : wp (catching p handler) Q E D w := by
  unfold wp at h ⊢
  unfold catching
  split at h <;> simp_all

theorem wp_lastly {p : Prog σ α} {last : Prog σ Unit}
    (h : wp p (fun a v => wp last (fun _ => Q a) E D v)
      (fun c v => wp last (fun _ => E c) E D v) D w) : wp (lastly p last) Q E D w := by
  unfold wp at h
  unfold wp lastly
  split at h
  · rename_i a v heq
    rw [heq]
    split at h <;> simp_all
  · rename_i c v heq
    rw [heq]
    split at h <;> simp_all
  · simp_all

theorem wp_withLocals {init : τ} {p : Prog τ α}
    (h : wp p (fun a v => Q a { disk := v.disk, fates := v.fates, vars := w.vars })
      (fun c v => E c { disk := v.disk, fates := v.fates, vars := w.vars }) D
      { disk := w.disk, fates := w.fates, vars := init }) : wp (withLocals init p) Q E D w := by
  unfold wp at h ⊢
  unfold withLocals
  split at h <;> simp_all

/-- One call, with what it says about its fate. -/
theorem wp_call_exact {op : Op α}
    (hok : ∀ a d, (w.fates.head? = none ∨ w.fates.head? = some .done) → op w.disk = .ok (a, d) →
      Q a { w with disk := d, fates := w.fates.tail })
    (herr : ∀ c, (w.fates.head? = none ∨ w.fates.head? = some .done) → op w.disk = .error c →
      E c { w with fates := w.fates.tail })
    (hfail : w.fates.head? = some .fails → E .other { w with fates := w.fates.tail })
    (hdead : ∀ b, w.fates.head? = some (.dies b) →
      D w.disk ∧ ∀ a d, op w.disk = .ok (a, d) → b = true → D d) :
    wp (call op) Q E D w := by
  have hperf : ∀ fates, fates = w.fates.tail →
      (w.fates.head? = none ∨ w.fates.head? = some .done) →
      wp (perform op) Q E D { w with fates := fates } := by
    rintro fates rfl hh
    unfold wp perform
    cases hop : op w.disk with
    | error c => exact herr c hh hop
    | ok r => exact hok r.1 r.2 hh hop
  unfold wp call
  match hf : w.fates with
  | [] =>
    have := hperf [] (by rw [hf]; rfl) (by rw [hf]; exact .inl rfl)
    unfold wp at this
    rw [show ({ w with fates := [] } : World σ) = w by rw [← hf]] at this
    exact this
  | .done :: fates => exact hperf fates (by rw [hf]; rfl) (by rw [hf]; exact .inr rfl)
  | .fails :: fates =>
    have := hfail (by rw [hf]; rfl)
    rw [hf] at this
    exact this
  | .dies after :: fates =>
    obtain ⟨h1, h2⟩ := hdead after (by rw [hf]; rfl)
    cases after with
    | false => exact h1
    | true =>
      show D (effect op w.disk)
      unfold effect
      cases hop : op w.disk with
      | error c => exact h1
      | ok r => exact h2 r.1 r.2 hop rfl

/-- One call: it takes effect, or it fails and changes nothing, or the process dies. -/
theorem wp_call {op : Op α}
    (hok : ∀ a d fates, op w.disk = .ok (a, d) → Q a { w with disk := d, fates := fates } ∧ D d)
    (herr : ∀ c fates, op w.disk = .error c → E c { w with fates := fates })
    (hfail : ∀ fates, E .other { w with fates := fates }) (hdead : D w.disk) :
    wp (call op) Q E D w := by
  apply wp_call_exact
  · exact fun a d _ hop => (hok a d _ hop).1
  · exact fun c _ hop => herr c _ hop
  · exact fun _ => hfail _
  · exact fun b _ => ⟨hdead, fun a d hop _ => (hok a d [] hop).2⟩

/-- What holds of the files however a program ends. -/
theorem disk_of_wp {p : Prog σ α} {P : Disk → Prop}
    (h : wp p (fun _ v => P v.disk) (fun _ v => P v.disk) P w) : P (p w).2.disk := by
  unfold wp at h
  split at h
  · rename_i heq
    rw [heq]
    exact h
  · rename_i heq
    rw [heq]
    exact h
  · rename_i heq
    rw [heq]
    exact h

theorem wp_vars {f : σ → Prog σ α} (h : wp (f w.vars) Q E D w) :
    wp (Prog.vars >>= f) Q E D w := wp_bind h

/-- A sequence, from what holds between its parts. -/
theorem wp_seq {p : Prog σ β} {f : β → Prog σ α} {R : β → World σ → Prop}
    (hp : wp p R E D w) (hf : ∀ b v, R b v → wp (f b) Q E D v) : wp (p >>= f) Q E D w :=
  wp_bind (wp_mono hp hf (fun _ _ h => h) (fun _ h => h))

/-- The variables are the same, and so are the files outside `S`. -/
def SameOff (S : List String) (w v : World σ) : Prop :=
  v.vars = w.vars ∧ ∀ n, n ∉ S → v.disk n = w.disk n

/-- However it ends, the program leaves the variables and the files outside `S` alone. -/
def Touches (S : List String) (p : Prog σ α) : Prop :=
  ∀ w, wp p (fun _ v => SameOff S w v) (fun _ v => SameOff S w v)
    (fun d => ∀ n, n ∉ S → d n = w.disk n) w

theorem SameOff.refl (S : List String) (w : World σ) : SameOff S w w := ⟨rfl, fun _ _ => rfl⟩

theorem SameOff.trans {S : List String} {u v w : World σ} (h : SameOff S u v)
    (h' : SameOff S v w) : SameOff S u w :=
  ⟨h'.1.trans h.1, fun n hn => (h'.2 n hn).trans (h.2 n hn)⟩

theorem wp_touches {S : List String} {p : Prog σ α} (hp : Touches S p)
    (hq : ∀ a v, SameOff S w v → Q a v) (he : ∀ c v, SameOff S w v → E c v)
    (hd : ∀ d, (∀ n, n ∉ S → d n = w.disk n) → D d) : wp p Q E D w :=
  wp_mono (hp w) hq he hd

variable {S : List String}

theorem touches_pure (a : α) : Touches S (Prog.pure a : Prog σ α) := fun w => SameOff.refl S w

theorem touches_throw (c : Code) : Touches S (Prog.throw c : Prog σ α) := fun w => SameOff.refl S w

theorem touches_call {op : Op α} (h : ∀ d a d', op d = .ok (a, d') → ∀ n, n ∉ S → d' n = d n) :
    Touches S (Prog.call op : Prog σ α) := by
  intro w
  apply wp_call
  · intro a d fates hop
    exact ⟨⟨rfl, h w.disk a d hop⟩, h w.disk a d hop⟩
  · exact fun c fates _ => ⟨rfl, fun _ _ => rfl⟩
  · exact fun fates => ⟨rfl, fun _ _ => rfl⟩
  · exact fun _ _ => rfl

theorem touches_bind {p : Prog σ β} {f : β → Prog σ α} (hp : Touches S p)
    (hf : ∀ b, Touches S (f b)) : Touches S (p >>= f) := by
  intro w
  apply wp_bind
  apply wp_touches hp
  · intro b v hv
    exact wp_touches (hf b) (fun _ _ h => hv.trans h) (fun _ _ h => hv.trans h)
      (fun d hd n hn => (hd n hn).trans (hv.2 n hn))
  · exact fun _ _ h => h
  · exact fun _ h => h

theorem touches_catching {p : Prog σ α} {handler : Code → Prog σ α} (hp : Touches S p)
    (hh : ∀ c, Touches S (handler c)) : Touches S (Prog.catching p handler) := by
  intro w
  apply wp_catching
  apply wp_touches hp
  · exact fun _ _ h => h
  · intro c v hv
    exact wp_touches (hh c) (fun _ _ h => hv.trans h) (fun _ _ h => hv.trans h)
      (fun d hd n hn => (hd n hn).trans (hv.2 n hn))
  · exact fun _ h => h

theorem touches_lastly {p : Prog σ α} {last : Prog σ Unit} (hp : Touches S p)
    (hl : Touches S last) : Touches S (Prog.lastly p last) := by
  intro w
  have after : ∀ v, SameOff S w v → wp last (fun _ u => SameOff S w u) (fun _ u => SameOff S w u)
      (fun d => ∀ n, n ∉ S → d n = w.disk n) v := by
    intro v hv
    exact wp_touches hl (fun _ _ h => hv.trans h) (fun _ _ h => hv.trans h)
      (fun d hd n hn => (hd n hn).trans (hv.2 n hn))
  apply wp_lastly
  exact wp_touches hp (fun _ v hv => after v hv) (fun _ v hv => after v hv) (fun _ h => h)

theorem touches_guarded {b : Bool} {p : Prog σ Unit} (hp : Touches S p) :
    Touches S (Prog.guarded b p) := by
  unfold Prog.guarded
  split
  · exact hp
  · exact touches_pure ()

theorem touches_quiet : Touches S (Fs.quiet : Prog σ Unit) := by
  apply touches_call
  intro d a d' h n _
  cases h
  rfl

theorem touches_stat (name : String) : Touches S (Fs.stat name : Prog σ File) := by
  apply touches_call
  intro d a d' h n _
  split at h
  · cases h
    rfl
  · cases h

theorem touches_pathExists (name : String) : Touches S (Fs.pathExists name : Prog σ Bool) := by
  apply touches_catching
  · exact touches_bind (touches_stat name) fun _ => touches_pure true
  · intro c
    split
    · exact touches_pure false
    · exact touches_throw c

/-- A call that leaves every file but one alone. -/
theorem touches_one {op : Op α} {name : String} (hn : name ∈ S)
    (h : ∀ d a d', op d = .ok (a, d') → d' = d ∨ ∃ f, d' = d.set name f) :
    Touches S (Prog.call op : Prog σ α) := by
  apply touches_call
  intro d a d' hop n hns
  rcases h d a d' hop with rfl | ⟨f, rfl⟩
  · rfl
  · exact Disk.set_other fun heq => hns (heq ▸ hn)

theorem touches_openExclusive {name : String} {mode : Nat} (hn : name ∈ S) :
    Touches S (Fs.openExclusive name mode : Prog σ Unit) := by
  apply touches_one hn
  intro d a d' h
  split at h
  · cases h
  · cases h
    exact .inr ⟨_, rfl⟩

theorem touches_writeFile {name text : String} (hn : name ∈ S) :
    Touches S (Fs.writeFile name text : Prog σ Unit) := by
  apply touches_one hn
  intro d a d' h
  split at h
  · cases h
    exact .inr ⟨_, rfl⟩
  · cases h
    exact .inl rfl

theorem touches_fchmod {name : String} {mode : Nat} (hn : name ∈ S) :
    Touches S (Fs.fchmod name mode : Prog σ Unit) := by
  apply touches_one hn
  intro d a d' h
  split at h
  · cases h
    exact .inr ⟨_, rfl⟩
  · cases h
    exact .inl rfl

theorem touches_openRead {name : String} : Touches S (Fs.openRead name : Prog σ Unit) := by
  apply touches_call
  intro d a d' h n _
  split at h
  · cases h
    rfl
  · cases h

theorem touches_readFile (name : String) : Touches S (Fs.readFile name : Prog σ String) := by
  apply touches_call
  intro d a d' h n _
  split at h
  · cases h
    rfl
  · cases h

theorem touches_rename {source target : String} (hs : source ∈ S) (ht : target ∈ S) :
    Touches S (Fs.rename source target : Prog σ Unit) := by
  apply touches_call
  intro d a d' h n hn
  split at h
  · cases h
  · cases h
    rw [Disk.set_other (by rintro rfl; exact hn ht), Disk.set_other (by rintro rfl; exact hn hs)]

theorem touches_unlink {name : String} (hn : name ∈ S) :
    Touches S (Fs.unlink name : Prog σ Unit) := by
  apply touches_one hn
  intro d a d' h
  split at h
  · cases h
  · cases h
    exact .inr ⟨_, rfl⟩

theorem touches_unlinkIfExists {name : String} (hn : name ∈ S) :
    Touches S (Fs.unlinkIfExists name : Prog σ Unit) := by
  apply touches_catching (touches_unlink hn)
  intro c
  split
  · exact touches_pure ()
  · exact touches_throw c

/-- What does not depend on the program. -/
theorem wp_const {p : Prog σ α} {P : Prop} (h : P) :
    wp p (fun _ _ => P) (fun _ _ => True) (fun _ => True) w := by
  unfold wp
  split
  · exact h
  · trivial
  · trivial

theorem wp_and {p : Prog σ α} (h : wp p Q E D w) (h' : wp p Q' E' D' w) :
    wp p (fun a v => Q a v ∧ Q' a v) (fun c v => E c v ∧ E' c v) (fun d => D d ∧ D' d) w := by
  unfold wp at h h' ⊢
  split at h <;> simp_all

/-- The next `n` calls are done. -/
def Undisturbed (n : Nat) (fates : List Fate) : Prop :=
  ∀ i, i < n → fates[i]? = none ∨ fates[i]? = some .done

theorem undisturbed_add {n m : Nat} {fates : List Fate} (h : Undisturbed n fates)
    (h' : Undisturbed m (fates.drop n)) : Undisturbed (n + m) fates := by
  intro i hi
  by_cases hin : i < n
  · exact h i hin
  · have := h' (i - n) (by omega)
    rwa [List.getElem?_drop, show n + (i - n) = i by omega] at this

/-- `n` calls of the list are done and `rest` is left. -/
def Spent (n : Nat) (fates rest : List Fate) : Prop :=
  rest = fates.drop n ∧ Undisturbed n fates

theorem Spent.trans {n m : Nat} {a b c : List Fate} (h : Spent n a b) (h' : Spent m b c) :
    Spent (n + m) a c := by
  obtain ⟨rfl, hu⟩ := h
  obtain ⟨rfl, hu'⟩ := h'
  exact ⟨by rw [List.drop_drop], undisturbed_add hu hu'⟩

/-- Where it returns, the program has made `n` calls, all of them done. -/
def Spends (n : Nat) (p : Prog σ α) : Prop :=
  ∀ w, wp p (fun _ v => Spent n w.fates v.fates) (fun _ _ => True) (fun _ => True) w

theorem spends_pure (a : α) : Spends 0 (Prog.pure a : Prog σ α) :=
  fun _ => ⟨rfl, fun _ h => absurd h (Nat.not_lt_zero _)⟩

theorem spends_call (op : Op α) : Spends 1 (Prog.call op : Prog σ α) := by
  intro w
  apply wp_call_exact
  · intro a d hh _
    refine ⟨List.drop_one.symm, fun i hi => ?_⟩
    obtain rfl : i = 0 := by omega
    rwa [← List.head?_eq_getElem?]
  · exact fun _ _ _ => trivial
  · exact fun _ => trivial
  · exact fun _ _ => ⟨trivial, fun _ _ _ _ => trivial⟩

theorem spends_bind {n m : Nat} {p : Prog σ β} {f : β → Prog σ α} (hp : Spends n p)
    (hf : ∀ b, Spends m (f b)) : Spends (n + m) (p >>= f) := by
  intro w
  apply wp_bind
  refine wp_mono (hp w) ?_ (fun _ _ h => h) (fun _ h => h)
  intro b v hv
  exact wp_mono (hf b v) (fun _ _ hu => hv.trans hu) (fun _ _ h => h) (fun _ h => h)

theorem spends_lastly {n m : Nat} {p : Prog σ α} {last : Prog σ Unit} (hp : Spends n p)
    (hl : Spends m last) : Spends (n + m) (Prog.lastly p last) := by
  intro w
  apply wp_lastly
  refine wp_mono (hp w) ?_ ?_ (fun _ h => h)
  · intro a v hv
    exact wp_mono (hl v) (fun _ _ hu => hv.trans hu) (fun _ _ h => h) (fun _ h => h)
  · intro c v _
    exact wp_mono (hl v) (fun _ _ _ => trivial) (fun _ _ h => h) (fun _ h => h)

theorem spends_guarded {n : Nat} {b : Bool} {p : Prog σ Unit} (hp : Spends n p) :
    Spends (if b then n else 0) (Prog.guarded b p) := by
  cases b with
  | true => exact hp
  | false => exact spends_pure ()

/-- A program that takes one kind of error for a value. -/
theorem spends_catching_call {op : Op β} {f : β → α} {handler : Code → Prog σ α}
    (hother : ∀ w, (handler .other w).1 = .thrown .other)
    (hcode : ∀ c, Spends 0 (handler c)) :
    Spends 1 (Prog.catching (Prog.call op >>= fun b => Prog.pure (f b)) handler) := by
  intro w
  have one : (w.fates.head? = none ∨ w.fates.head? = some .done) → Undisturbed 1 w.fates := by
    intro hh i hi
    obtain rfl : i = 0 := by omega
    rwa [← List.head?_eq_getElem?]
  apply wp_catching
  apply wp_bind
  apply wp_call_exact
  · exact fun a d hh _ => ⟨List.drop_one.symm, one hh⟩
  · intro c hh _
    refine wp_mono (hcode c _) ?_ (fun _ _ h => h) (fun _ h => h)
    intro a v hv
    exact ⟨hv.1.trans List.drop_one.symm, one hh⟩
  · intro _
    unfold wp
    split
    · rename_i heq
      have := hother { w with fates := w.fates.tail }
      rw [heq] at this
      cases this
    · trivial
    · trivial
  · exact fun _ _ => ⟨trivial, fun _ _ _ _ => trivial⟩

theorem spends_pathExists (name : String) : Spends 1 (Fs.pathExists name : Prog σ Bool) := by
  apply spends_catching_call
  · exact fun _ => rfl
  · intro c
    split
    · exact spends_pure false
    · exact fun _ => trivial

theorem spends_unlinkIfExists (name : String) : Spends 1 (Fs.unlinkIfExists name : Prog σ Unit) := by
  have heq : (Fs.unlinkIfExists name : Prog σ Unit) =
      Prog.catching (Fs.unlink name >>= fun b => Prog.pure b)
        fun code => if code = .enoent then Prog.pure () else Prog.throw code := by
    funext w
    show Prog.catching _ _ w = Prog.catching (Prog.bind _ _) _ w
    unfold Prog.catching Prog.bind
    rcases Fs.unlink name w with ⟨_ | _ | _, v⟩
    · rfl
    · rfl
    · rfl
  rw [heq]
  apply spends_catching_call
  · exact fun _ => rfl
  · intro c
    split
    · exact spends_pure ()
    · exact fun _ => trivial

/-- A program of which the number of calls is known. -/
theorem wp_counted {n : Nat} {p : Prog σ α} (hs : Spends n p)
    (h : wp p (fun a v => Spent n w.fates v.fates → Q a v) E D w) : wp p Q E D w :=
  wp_mono (wp_and h (hs w)) (fun _ _ h => h.1 h.2) (fun _ _ h => h.1) (fun _ h => h.1)

/-- The same variables and files. -/
def Still (w v : World σ) : Prop := v.vars = w.vars ∧ v.disk = w.disk

theorem wp_still {p : Prog σ α} (hp : Touches [] p) (hq : ∀ a v, Still w v → Q a v)
    (he : ∀ c v, Still w v → E c v) (hd : D w.disk) : wp p Q E D w := by
  have same : ∀ d : Disk, (∀ n, n ∉ ([] : List String) → d n = w.disk n) → d = w.disk :=
    fun d h => funext fun n => h n List.not_mem_nil
  apply wp_touches hp
  · exact fun a v h => hq a v ⟨h.1, same v.disk h.2⟩
  · exact fun c v h => he c v ⟨h.1, same v.disk h.2⟩
  · intro d h
    rw [same d h]
    exact hd

theorem wp_pathExists {name : String} {Q : Bool → World σ → Prop}
    (hq : ∀ v, Still w v → Q (w.disk name).isSome v) (he : ∀ v, Still w v → E .other v)
    (hd : D w.disk) : wp (Fs.pathExists name) Q E D w := by
  apply wp_catching
  apply wp_bind
  apply wp_call
  · intro file d fates hop
    split at hop
    · rename_i f hf
      cases hop
      refine ⟨?_, hd⟩
      have := hq { w with fates := fates } ⟨rfl, rfl⟩
      rw [hf] at this
      exact this
    · cases hop
  · intro c fates hop
    split at hop
    · cases hop
    · rename_i hf
      cases hop
      have := hq { w with fates := fates } ⟨rfl, rfl⟩
      rw [hf] at this
      exact this
  · intro fates
    exact he { w with fates := fates } ⟨rfl, rfl⟩
  · exact hd

theorem wp_unlink {name : String} {Q : Unit → World σ → Prop}
    (hq : ∀ f v, w.disk name = some f → v.vars = w.vars → v.disk = w.disk.set name none → Q () v)
    (hmiss : ∀ v, w.disk name = none → Still w v → E .enoent v)
    (he : ∀ v, Still w v → E .other v) (hd : D w.disk)
    (hd' : ∀ f, w.disk name = some f → D (w.disk.set name none)) :
    wp (Fs.unlink name) Q E D w := by
  apply wp_call
  · intro _ d fates hop
    split at hop
    · cases hop
    · rename_i f hf
      cases hop
      exact ⟨hq f _ hf rfl rfl, hd' f hf⟩
  · intro c fates hop
    split at hop
    · rename_i hf
      cases hop
      exact hmiss _ hf ⟨rfl, rfl⟩
    · cases hop
  · intro fates
    exact he _ ⟨rfl, rfl⟩
  · exact hd

theorem Disk.set_none_of_none {d : Disk} {name : String} (h : d name = none) :
    d.set name none = d := by
  funext n
  by_cases hn : n = name
  · rw [hn, Disk.set_same, h]
  · exact Disk.set_other hn

theorem wp_unlinkIfExists {name : String} {Q : Unit → World σ → Prop}
    (hq : ∀ v, v.vars = w.vars → v.disk = w.disk.set name none → Q () v)
    (he : ∀ v, Still w v → E .other v) (hd : D w.disk) (hd' : D (w.disk.set name none)) :
    wp (Fs.unlinkIfExists name) Q E D w := by
  apply wp_catching
  apply wp_unlink
  · exact fun _ v _ hv hdisk => hq v hv hdisk
  · intro v hnone hv
    refine hq v hv.1 ?_
    rw [hv.2, Disk.set_none_of_none hnone]
  · exact fun v hv => he v hv
  · exact hd
  · exact fun _ _ => hd'

theorem wp_rename {source target : String} {Q : Unit → World σ → Prop}
    (hq : ∀ f v, w.disk source = some f → v.vars = w.vars →
      v.disk = (w.disk.set source none).set target (some f) → Q () v)
    (hmiss : ∀ v, w.disk source = none → Still w v → E .enoent v)
    (he : ∀ v, Still w v → E .other v) (hd : D w.disk)
    (hd' : ∀ f, w.disk source = some f → D ((w.disk.set source none).set target (some f))) :
    wp (Fs.rename source target) Q E D w := by
  apply wp_call
  · intro _ d fates hop
    split at hop
    · cases hop
    · rename_i f hf
      cases hop
      exact ⟨hq f _ hf rfl rfl, hd' f hf⟩
  · intro c fates hop
    split at hop
    · rename_i hf
      cases hop
      exact hmiss _ hf ⟨rfl, rfl⟩
    · cases hop
  · intro fates
    exact he _ ⟨rfl, rfl⟩
  · exact hd

theorem wp_openExclusive {name : String} {mode : Nat} {Q : Unit → World σ → Prop}
    (hq : ∀ v, v.vars = w.vars → v.disk = w.disk.set name (some { text := "", mode := mode }) →
      Q () v)
    (he : ∀ c v, Still w v → E c v) (hd : D w.disk)
    (hd' : D (w.disk.set name (some { text := "", mode := mode }))) :
    wp (Fs.openExclusive name mode) Q E D w := by
  apply wp_call
  · intro _ d fates hop
    split at hop
    · cases hop
    · cases hop
      exact ⟨hq _ rfl rfl, hd'⟩
  · exact fun c fates _ => he c _ ⟨rfl, rfl⟩
  · exact fun fates => he _ _ ⟨rfl, rfl⟩
  · exact hd

/-- A call on an open file, which is there. -/
theorem wp_writeFile {name text : String} {f : File} {Q : Unit → World σ → Prop}
    (hf : w.disk name = some f)
    (hq : ∀ v, v.vars = w.vars → v.disk = w.disk.set name (some { f with text := text }) → Q () v)
    (he : ∀ c v, Still w v → E c v) (hd : D w.disk)
    (hd' : D (w.disk.set name (some { f with text := text }))) :
    wp (Fs.writeFile name text) Q E D w := by
  apply wp_call
  · intro _ d fates hop
    rw [hf] at hop
    cases hop
    exact ⟨hq _ rfl rfl, hd'⟩
  · exact fun c fates _ => he c _ ⟨rfl, rfl⟩
  · exact fun fates => he _ _ ⟨rfl, rfl⟩
  · exact hd

theorem wp_fchmod {name : String} {mode : Nat} {f : File} {Q : Unit → World σ → Prop}
    (hf : w.disk name = some f)
    (hq : ∀ v, v.vars = w.vars → v.disk = w.disk.set name (some { f with mode := mode }) → Q () v)
    (he : ∀ c v, Still w v → E c v) (hd : D w.disk)
    (hd' : D (w.disk.set name (some { f with mode := mode }))) :
    wp (Fs.fchmod name mode) Q E D w := by
  apply wp_call
  · intro _ d fates hop
    rw [hf] at hop
    cases hop
    exact ⟨hq _ rfl rfl, hd'⟩
  · exact fun c fates _ => he c _ ⟨rfl, rfl⟩
  · exact fun fates => he _ _ ⟨rfl, rfl⟩
  · exact hd

theorem wp_chmod {name : String} {mode : Nat} {Q : Unit → World σ → Prop}
    (hq : ∀ f v, w.disk name = some f → v.vars = w.vars →
      v.disk = w.disk.set name (some { f with mode := mode }) → Q () v)
    (he : ∀ c v, Still w v → E c v) (hd : D w.disk)
    (hd' : ∀ f, w.disk name = some f → D (w.disk.set name (some { f with mode := mode }))) :
    wp (Fs.chmod name mode) Q E D w := by
  apply wp_call
  · intro _ d fates hop
    split at hop
    · rename_i f hf
      cases hop
      exact ⟨hq f _ hf rfl rfl, hd' f hf⟩
    · cases hop
  · exact fun c fates _ => he c _ ⟨rfl, rfl⟩
  · exact fun fates => he _ _ ⟨rfl, rfl⟩
  · exact hd

theorem wp_copyFile {source target : String} {Q : Unit → World σ → Prop}
    (hq : ∀ f v, w.disk source = some f → v.vars = w.vars →
      v.disk = w.disk.set target (some f) → Q () v)
    (hmiss : ∀ v, w.disk source = none → Still w v → E .enoent v)
    (he : ∀ c v, c ≠ .enoent → Still w v → E c v) (hd : D w.disk)
    (hd' : ∀ f, w.disk source = some f → D (w.disk.set target (some f))) :
    wp (Fs.copyFile source target) Q E D w := by
  apply wp_call
  · intro _ d fates hop
    split at hop
    · cases hop
    · cases hop
    · rename_i f hf _
      cases hop
      exact ⟨hq f _ hf rfl rfl, hd' f hf⟩
  · intro c fates hop
    split at hop
    · rename_i hf
      cases hop
      exact hmiss _ hf ⟨rfl, rfl⟩
    · cases hop
      exact he _ _ (by decide) ⟨rfl, rfl⟩
    · cases hop
  · exact fun fates => he _ _ (by decide) ⟨rfl, rfl⟩
  · exact hd

end Rules

section Calm

variable {σ α β : Type} {w w' : World σ}

/-- A world in which every call is done. -/
abbrev World.calm (d : Disk) (v : σ) : World σ := { disk := d, fates := [], vars := v }

theorem bind_of_value {p : Prog σ β} {f : β → Prog σ α} {b : β} (h : p w = (.value b, w')) :
    (p >>= f) w = f b w' := by
  show Prog.bind p f w = _
  rw [Prog.bind, h]

theorem bind_of_thrown {p : Prog σ β} {f : β → Prog σ α} {c : Code} (h : p w = (.thrown c, w')) :
    (p >>= f) w = (.thrown c, w') := by
  show Prog.bind p f w = _
  rw [Prog.bind, h]

theorem catching_of_thrown {p : Prog σ α} {handler : Code → Prog σ α} {c : Code}
    (h : p w = (.thrown c, w')) : Prog.catching p handler w = handler c w' := by
  rw [Prog.catching, h]

theorem catching_of_value {p : Prog σ α} {handler : Code → Prog σ α} {a : α}
    (h : p w = (.value a, w')) : Prog.catching p handler w = (.value a, w') := by
  rw [Prog.catching, h]

variable (d : Disk) (v : σ)

theorem pathExists_calm (name : String) :
    Fs.pathExists name (World.calm d v) = (.value (d name).isSome, World.calm d v) := by
  cases h : d name with
  | none => simp [Fs.pathExists, Prog.catching, Prog.bind, bind, Fs.stat, Prog.call, Prog.perform, h,
      Prog.pure]
  | some f => simp [Fs.pathExists, Prog.catching, Prog.bind, bind, Fs.stat, Prog.call, Prog.perform,
      h, Prog.pure]

theorem unlink_calm {name : String} {f : File} (h : d name = some f) :
    Fs.unlink name (World.calm d v) = (.value (), World.calm (d.set name none) v) := by
  simp [Fs.unlink, Prog.call, Prog.perform, h]

theorem unlinkIfExists_calm (name : String) :
    Fs.unlinkIfExists name (World.calm d v) = (.value (), World.calm (d.set name none) v) := by
  cases h : d name with
  | none =>
    rw [Disk.set_none_of_none h]
    simp [Fs.unlinkIfExists, Prog.catching, Fs.unlink, Prog.call, Prog.perform, h, Prog.pure]
  | some f => exact catching_of_value (unlink_calm d v h)

theorem rename_calm {source target : String} {f : File} (h : d source = some f) :
    Fs.rename source target (World.calm d v) =
      (.value (), World.calm ((d.set source none).set target (some f)) v) := by
  simp [Fs.rename, Prog.call, Prog.perform, h]

end Calm

section Ready

variable {σ α : Type} {d : Disk} {n : Nat} {rest : List Fate} {v : σ}

/-- A world in which the next `n` calls are done. -/
abbrev World.ready (d : Disk) (n : Nat) (rest : List Fate) (v : σ) : World σ :=
  { disk := d, fates := List.replicate n .done ++ rest, vars := v }

theorem call_ready {op : Op α} {d' : Disk} {a : α} (hop : op d = .ok (a, d')) :
    Prog.call op (World.ready d (n + 1) rest v) = (.value a, World.ready d' n rest v) := by
  unfold Prog.call Prog.perform
  simp only [List.replicate_succ, List.cons_append, hop]

theorem quiet_ready :
    Fs.quiet (World.ready d (n + 1) rest v) = (.value (), World.ready d n rest v) := call_ready rfl

theorem unlink_ready {name : String} {f : File} (h : d name = some f) :
    Fs.unlink name (World.ready d (n + 1) rest v) =
      (.value (), World.ready (d.set name none) n rest v) := call_ready (by simp [h])

theorem rename_ready {source target : String} {f : File} (h : d source = some f) :
    Fs.rename source target (World.ready d (n + 1) rest v) =
      (.value (), World.ready ((d.set source none).set target (some f)) n rest v) :=
  call_ready (by simp [h])

theorem openExclusive_ready {name : String} {mode : Nat} (h : d name = none) :
    Fs.openExclusive name mode (World.ready d (n + 1) rest v) =
      (.value (), World.ready (d.set name (some { text := "", mode := mode })) n rest v) :=
  call_ready (by simp [h])

theorem writeFile_ready {name text : String} {f : File} (h : d name = some f) :
    Fs.writeFile name text (World.ready d (n + 1) rest v) =
      (.value (), World.ready (d.set name (some { f with text := text })) n rest v) :=
  call_ready (by simp [h])

theorem fchmod_ready {name : String} {mode : Nat} {f : File} (h : d name = some f) :
    Fs.fchmod name mode (World.ready d (n + 1) rest v) =
      (.value (), World.ready (d.set name (some { f with mode := mode })) n rest v) :=
  call_ready (by simp [h])

theorem chmod_ready {name : String} {mode : Nat} {f : File} (h : d name = some f) :
    Fs.chmod name mode (World.ready d (n + 1) rest v) =
      (.value (), World.ready (d.set name (some { f with mode := mode })) n rest v) :=
  call_ready (by simp [h])

theorem pathExists_ready (name : String) :
    Fs.pathExists name (World.ready d (n + 1) rest v) =
      (.value (d name).isSome, World.ready d n rest v) := by
  cases h : d name with
  | none => simp [Fs.pathExists, Prog.catching, Prog.bind, bind, Fs.stat, Prog.call, Prog.perform, h,
      Prog.pure, List.replicate_succ]
  | some f => simp [Fs.pathExists, Prog.catching, Prog.bind, bind, Fs.stat, Prog.call, Prog.perform,
      h, Prog.pure, List.replicate_succ]

end Ready

end Lib
