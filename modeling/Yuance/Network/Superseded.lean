import Yuance.Network.Coordinator

/-!
# Yuance.Network.Superseded

What a superseded run may still do. All runs share the variable `controller`, and the `finally` of
the lease callback aborts whatever it holds by then; the `catch` block publishes behind two awaits
without looking at the generation again.

* `Allowed`: the steps after which neither can go wrong.
* `Inv`: while every step is allowed, a run inside its lease or inside `onReauthorizationRequired` is
  the current one, or no controller is there to abort.
* `superseded_run_is_harmless`: in runs of allowed steps superseded runs are without effect.
* `superseded_run_aborts_successor`: without the condition an old run aborts the new one's stream.
-/

namespace Yuance
namespace Network

open Lib

/-- A call that makes the current run a superseded one. -/
def Event.supersedes : Event → Bool
  | .suspend | .invalidate | .stop => true
  | _ => false

/-- No run is between the request for its lease and the end of the lease callback. -/
def NoLease (s : State) : Prop := ∀ r pc, s.runs r = some pc → pc.inLease = false

/-- The error that the `catch` block goes on with behind its probe. -/
def probedError (error : Failure) (result : Option Failure) : Failure := result.getD error

/-- A new run starts only when no earlier run is still inside its lease; the current run is not
superseded while it awaits `onReauthorizationRequired`; and the probe in the `catch` block of a
superseded run does not end in a security failure. -/
def Allowed (s : State) : Event → Prop
  | .start => s.running = none → NoLease s
  | .resume => s.suspended = true → s.running = none → NoLease s
  | .suspend | .invalidate | .stop => ∀ pc, s.runs s.generation = some pc → pc ≠ .reauth
  | .probeSettled r result => ∀ error, s.runs r = some (.catchProbe error) → r ≠ s.generation →
      (probedError error result).isSecurity = false
  | _ => True

/-- The step leaves the current run alone if it resumes a superseded run: no status, no fact, no
abort of a controller of the current run. And a controller of the current run is aborted only by
that run itself or by a call that supersedes it. -/
structure Undisturbed (x : Entry State Event (List Effect)) : Prop where
  quiet : ∀ r, x.event.actor = some r → r ≠ x.pre.generation → ∀ fx ∈ x.out,
    (∀ status listeners, fx ≠ .publish status listeners) ∧ (∀ epoch value, fx ≠ .fact epoch value)
      ∧ ∀ c, fx = .abort c → x.pre.owner c ≠ x.pre.generation
  keeps : ∀ c, Effect.abort c ∈ x.out → x.pre.owner c = x.pre.generation →
    x.event.supersedes = true ∨ x.event.actor = some x.pre.generation

structure Inv (s : State) : Prop where
  bounded : ∀ r pc, s.runs r = some pc → r ≤ s.generation
  live : ∀ pc, s.runs s.generation = some pc → pc ≠ .ended → s.running = some s.generation
  lease : (s.controller = none ∧ s.runs s.generation = none)
    ∨ ∀ r pc, s.runs r = some pc → pc.inLease = true → r = s.generation
  reauth : ∀ r, s.runs r = some .reauth → r = s.generation

theorem inv_initial : Inv initial :=
  ⟨by simp [initial], by simp [initial], .inl ⟨rfl, rfl⟩, by simp [initial]⟩

/-! ## What keeps the invariant -/

section Steps

variable {s : State} {r : Nat} {pc pc' : Pc}

/-- The invariant reads neither the status nor the listeners nor the table of controllers. -/
theorem Inv.congr {s' : State} (h : Inv s) (hg : s'.generation = s.generation)
    (hr : s'.running = s.running) (hc : s'.controller = s.controller) (hp : s'.runs = s.runs) :
    Inv s' := by
  obtain ⟨h1, h2, h3, h4⟩ := h
  refine ⟨?_, ?_, ?_, ?_⟩
  · rw [hp, hg]; exact h1
  · rw [hp, hg, hr]; exact h2
  · rw [hp, hg, hc]; exact h3
  · rw [hp, hg]; exact h4

/-- A run that has not ended moves to another place. -/
theorem Inv.setPc (h : Inv s) (hpc : s.runs r = some pc) (hend : pc ≠ .ended)
    (hlease : pc'.inLease = true → r = s.generation ∨ pc.inLease = true)
    (hreauth : pc' = .reauth → r = s.generation) : Inv (s.setPc r pc') := by
  refine ⟨?_, ?_, ?_, ?_⟩
  · intro q p hq
    by_cases hqr : q = r
    · subst hqr
      exact h.bounded q pc hpc
    · simp only [State.setPc, Function.update_of_ne hqr] at hq
      exact h.bounded q p hq
  · intro p hp hne
    by_cases hgr : s.generation = r
    · exact h.live pc (by rw [hgr]; exact hpc) hend
    · simp only [State.setPc, Function.update_of_ne hgr] at hp
      exact h.live p hp hne
  · rcases h.lease with ⟨hc, hn⟩ | hl
    · left
      have hgr : s.generation ≠ r := by
        intro hgr
        rw [hgr, hpc] at hn
        cases hn
      exact ⟨hc, by simp only [State.setPc, Function.update_of_ne hgr]; exact hn⟩
    · right
      intro q p hq hin
      by_cases hqr : q = r
      · subst hqr
        simp only [State.setPc, Function.update_self, Option.some.injEq] at hq
        subst hq
        rcases hlease hin with hg | hin'
        · exact hg
        · exact hl q pc hpc hin'
      · simp only [State.setPc, Function.update_of_ne hqr] at hq
        exact hl q p hq hin
  · intro q hq
    by_cases hqr : q = r
    · subst hqr
      simp only [State.setPc, Function.update_self, Option.some.injEq] at hq
      exact hreauth hq
    · simp only [State.setPc, Function.update_of_ne hqr] at hq
      exact h.reauth q hq

/-- The current run replaces the shared controller. -/
theorem Inv.newController (h : Inv s) (hpc : s.runs s.generation = some pc) :
    Inv (s.newController s.generation) := by
  refine ⟨h.bounded, h.live, ?_, h.reauth⟩
  rcases h.lease with ⟨-, hn⟩ | hl
  · rw [hpc] at hn
    cases hn
  · exact .inr hl

theorem Inv.publish (h : Inv s) (next : Status) : Inv (s.publish next).1 :=
  h.congr rfl rfl rfl rfl

theorem Inv.abortController (h : Inv s) : Inv s.abortController.1 := by
  unfold State.abortController
  split
  · exact h
  · exact h.congr rfl rfl rfl rfl

theorem Inv.loopHead (h : Inv s) (hpc : s.runs r = some pc) (hend : pc ≠ .ended) :
    Inv (s.loopHead r).1 := by
  unfold State.loopHead
  split
  · rename_i hcur
    obtain ⟨rfl, -⟩ := hcur
    exact (Inv.publish (h.newController hpc) .connecting).setPc hpc hend (fun _ => .inl rfl)
      (by simp)
  · exact h.setPc hpc hend (by simp [Pc.inLease]) (by simp)

theorem Inv.offline (h : Inv s) (hpc : s.runs r = some pc) (hend : pc ≠ .ended) :
    Inv (s.offline r).1 := by
  unfold State.offline
  split
  · exact h.setPc hpc hend (by simp [Pc.inLease]) (by simp)
  · rename_i hcur
    obtain rfl := not_not.mp hcur
    have h' : Inv ((s.publish .offline).1.newController s.generation) :=
      (h.publish .offline).newController hpc
    exact h'.setPc hpc hend (by simp [Pc.inLease]) (by simp)

theorem Inv.afterProbe (h : Inv s) (hpc : s.runs r = some pc) (hend : pc ≠ .ended)
    {error : Failure} (hsec : error.isSecurity = true → r = s.generation) :
    Inv (s.afterProbe r error).1 := by
  unfold State.afterProbe
  split
  · rename_i hs
    exact h.setPc hpc hend (by simp [Pc.inLease]) (fun _ => hsec hs)
  · exact h.offline hpc hend

theorem Inv.enterCatch (h : Inv s) (hpc : s.runs r = some pc) (hend : pc ≠ .ended)
    (error : Failure) : Inv (s.enterCatch r error).1 := by
  have hret : Inv (s.setPc r .returned) := h.setPc hpc hend (by simp [Pc.inLease]) (by simp)
  unfold State.enterCatch
  split
  · exact hret
  · rename_i hcur
    split
    · exact hret
    · split
      · exact hret
      · split
        · exact h.setPc hpc hend (by simp [Pc.inLease]) (by simp)
        · exact h.afterProbe hpc hend (fun _ => not_not.mp hcur)

theorem Inv.supersede (h : Inv s) (next : Status)
    (hre : ∀ pc, s.runs s.generation = some pc → pc ≠ .reauth) : Inv (s.supersede next).1 := by
  have hruns : (s.supersede next).1.runs = s.runs := by
    unfold State.supersede State.abortController
    cases s.controller <;> rfl
  have hgen : (s.supersede next).1.generation = s.generation + 1 := by
    unfold State.supersede State.abortController
    cases s.controller <;> rfl
  have hctl : (s.supersede next).1.controller = none := rfl
  have hnone : s.runs (s.generation + 1) = none := by
    cases hq : s.runs (s.generation + 1) with
    | none => rfl
    | some pc =>
      have := h.bounded _ _ hq
      omega
  refine ⟨?_, ?_, .inl ⟨hctl, by rw [hruns, hgen]; exact hnone⟩, ?_⟩
  · intro q p hq
    rw [hruns] at hq
    rw [hgen]
    exact Nat.le_succ_of_le (h.bounded q p hq)
  · intro p hp
    rw [hruns, hgen, hnone] at hp
    cases hp
  · intro q hq
    rw [hruns] at hq
    obtain rfl := h.reauth q hq
    exact absurd rfl (hre _ hq)

theorem Inv.start (h : Inv s) (hok : s.running = none → NoLease s) : Inv s.start.1 := by
  unfold State.start
  split
  · exact h
  · rename_i hnone
    have hl := hok hnone
    have hended : ∀ pc, s.runs s.generation = some pc → pc = .ended := by
      intro pc hpc
      by_contra hne
      have := h.live pc hpc hne
      rw [hnone] at this
      cases this
    simp only [State.loopHead, true_and, if_true]
    refine ⟨?_, ?_, .inr ?_, ?_⟩
    · intro q p hq
      by_cases hqr : q = s.generation + 1
      · subst hqr
        exact Nat.le_refl _
      · simp only [State.setPc, State.publish, State.newController,
          Function.update_of_ne hqr] at hq
        exact Nat.le_succ_of_le (h.bounded q p hq)
    · intro p _ _
      rfl
    · intro q p hq hin
      by_cases hqr : q = s.generation + 1
      · exact hqr
      · simp only [State.setPc, State.publish, State.newController,
          Function.update_of_ne hqr] at hq
        rw [hl q p hq] at hin
        cases hin
    · intro q hq
      by_cases hqr : q = s.generation + 1
      · exact hqr
      · simp only [State.setPc, State.publish, State.newController,
          Function.update_of_ne hqr] at hq
        have hg := h.reauth q hq
        rw [hg] at hq
        have := hended _ hq
        cases this

theorem Inv.runSettled (h : Inv s) (hpc : s.runs r = some .returned) :
    Inv (({ s with running := if r = s.generation then none else s.running } : State).setPc r
      .ended) := by
  have h' : Inv (s.setPc r .ended) := h.setPc hpc (by simp) (by simp [Pc.inLease]) (by simp)
  refine ⟨h'.bounded, ?_, h'.lease, h'.reauth⟩
  intro p hp hne
  by_cases hgr : s.generation = r
  · subst hgr
    simp only [State.setPc, Function.update_self, Option.some.injEq] at hp
    exact absurd hp.symm hne
  · have := h'.live p hp hne
    simp only [State.setPc] at this ⊢
    rw [if_neg (Ne.symm hgr)]
    exact this

theorem Inv.leaseGranted (h : Inv s) (hpc : s.runs r = some .lease) (epoch : Nat) :
    Inv (s.leaseGranted r epoch) := by
  unfold State.leaseGranted
  split
  · exact h.setPc hpc (by simp) (by simp [Pc.inLease]) (by simp)
  · exact h.setPc hpc (by simp) (fun _ => .inr rfl) (by simp)

theorem Inv.raceResumed (h : Inv s) {epoch : Nat} {result : Except Failure Outcome}
    (hpc : s.runs r = some (.race epoch (some result))) :
    Inv (s.raceResumed r result).1 := by
  unfold State.raceResumed
  split
  · exact h.setPc hpc (by simp) (by simp [Pc.inLease]) (by simp)
  · rename_i c hc
    have hruns : s.abortController.1.runs r = some (.race epoch (some result)) := by
      simp only [State.abortController, hc]
      exact hpc
    exact h.abortController.setPc hruns (by simp) (by simp [Pc.inLease]) (by simp)

theorem Inv.leaseSettled (h : Inv s) {result : Except Failure Outcome}
    (hpc : s.runs r = some (.leaving result)) (stale : Option Failure) :
    Inv (s.leaseSettled r result stale).1 := by
  unfold State.leaseSettled
  split
  · exact h.enterCatch hpc (by simp) _
  · exact h.enterCatch hpc (by simp) _
  · split
    · exact h.setPc hpc (by simp) (by simp [Pc.inLease]) (by simp)
    · split
      · exact h.setPc hpc (by simp) (by simp [Pc.inLease]) (by simp)
      · exact h.setPc hpc (by simp) (by simp [Pc.inLease]) (by simp)

theorem Inv.refreshSettled (h : Inv s) (hpc : s.runs r = some .refreshing)
    (result : Except Failure Bool) : Inv (s.refreshSettled r result).1 := by
  unfold State.refreshSettled
  split
  · exact h.setPc hpc (by simp) (by simp [Pc.inLease]) (by simp)
  · exact h.setPc hpc (by simp) (by simp [Pc.inLease]) (by simp)
  · exact h.enterCatch hpc (by simp) _

theorem Inv.control (h : Inv s) (epoch : Nat) (value : Control) :
    Inv (s.control r epoch value).1 := by
  unfold State.control
  split
  · exact h
  · split
    · exact h.publish .online
    · exact h
    · exact h
    · exact h

end Steps

/-! ## Steps and runs -/

section Runs

variable {s s' : State} {r : Nat} {pc : Pc} {e : Event} {fx : List Effect}

/-- Resuming a run keeps the invariant. -/
theorem resumeRun_inv (h : Inv s) (hpc : s.runs r = some pc) (ha : e.actor = some r)
    (hok : Allowed s e) (he : resumeRun s r pc e = some (s', fx)) : Inv s' := by
  unfold resumeRun at he
  split at he
  all_goals first
    | cases he; done
    | obtain rfl := congrArg Prod.fst (Option.some.inj he)
  · exact h.leaseGranted hpc _
  · exact h.enterCatch hpc (by simp) _
  · exact h.setPc hpc (by simp) (fun _ => .inr rfl) (by simp)
  · exact h.setPc hpc (by simp) (fun _ => .inr rfl) (by simp)
  · exact h.raceResumed hpc
  · exact h.leaseSettled hpc _
  · exact h.refreshSettled hpc _
  · exact h.loopHead hpc (by simp)
  · exact h.enterCatch hpc (by simp) _
  · exact h.offline hpc (by simp)
  · exact h.enterCatch hpc (by simp) _
  · rename_i error r'
    obtain rfl := Option.some.inj ha
    refine h.afterProbe hpc (by simp) ?_
    intro hsec
    by_contra hne
    have := hok error hpc hne
    rw [probedError, Option.getD_none, hsec] at this
    cases this
  · rename_i error' r' error
    obtain rfl := Option.some.inj ha
    refine h.afterProbe hpc (by simp) ?_
    intro hsec
    by_contra hne
    have := hok error' hpc hne
    rw [probedError, Option.getD_some, hsec] at this
    cases this
  · exact (h.publish _).setPc hpc (by simp) (by simp [Pc.inLease]) (by simp)
  · exact h.loopHead hpc (by simp)
  · exact h.setPc hpc (by simp) (by simp [Pc.inLease]) (by simp)
  · exact h.runSettled hpc

theorem loopHead_quiet (hne : r ≠ s.generation) : (s.loopHead r).2 = [] := by
  rw [State.loopHead, if_neg (fun hc => hne hc.1)]

theorem offline_quiet (hne : r ≠ s.generation) : (s.offline r).2 = [] := by
  rw [State.offline, if_pos hne]

theorem enterCatch_quiet (hne : r ≠ s.generation) (error : Failure) :
    (s.enterCatch r error).2 = [] := by
  rw [State.enterCatch, if_pos hne]

theorem afterProbe_quiet (hne : r ≠ s.generation) {error : Failure}
    (hsec : error.isSecurity = false) : (s.afterProbe r error).2 = [] := by
  rw [State.afterProbe, hsec, if_neg (by simp)]
  exact offline_quiet hne

/-- A superseded run that leaves its race finds no controller. -/
theorem raceResumed_quiet (h : Inv s) (hne : r ≠ s.generation) {epoch : Nat}
    {result : Except Failure Outcome} (hpc : s.runs r = some (.race epoch (some result))) :
    (s.raceResumed r result).2 = [] := by
  rcases h.lease with ⟨hc, -⟩ | hl
  · rw [State.raceResumed, hc]
  · exact absurd (hl r _ hpc rfl) hne

/-- Resuming a superseded run has no effect. -/
theorem resumeRun_quiet (h : Inv s) (hpc : s.runs r = some pc) (ha : e.actor = some r)
    (hok : Allowed s e) (hne : r ≠ s.generation) (he : resumeRun s r pc e = some (s', fx)) :
    fx = [] := by
  unfold resumeRun at he
  split at he
  all_goals first
    | cases he; done
    | obtain rfl := congrArg Prod.snd (Option.some.inj he)
  · rfl
  · exact enterCatch_quiet hne _
  · rfl
  · rfl
  · exact raceResumed_quiet h hne hpc
  · unfold State.leaseSettled
    split
    · exact enterCatch_quiet hne _
    · exact enterCatch_quiet hne _
    · rw [if_pos (.inl hne)]
  · unfold State.refreshSettled
    split
    · rfl
    · rfl
    · exact enterCatch_quiet hne _
  · exact loopHead_quiet hne
  · exact enterCatch_quiet hne _
  · exact offline_quiet hne
  · exact enterCatch_quiet hne _
  · rename_i error r'
    obtain rfl := Option.some.inj ha
    exact afterProbe_quiet hne (hok error hpc hne)
  · rename_i error' r' error
    obtain rfl := Option.some.inj ha
    exact afterProbe_quiet hne (hok error' hpc hne)
  · exact absurd (h.reauth r hpc) hne
  · exact loopHead_quiet hne
  · rfl
  · rfl

theorem resumed_undisturbed (h : Inv s) (ha : e.actor = some r) (hok : Allowed s e)
    (he : (match s.runs r with
      | none => none
      | some pc => resumeRun s r pc e) = some (s', fx)) :
    Inv s' ∧ Undisturbed ⟨s, e, fx⟩ := by
  split at he
  · cases he
  · rename_i pc hpc
    refine ⟨resumeRun_inv h hpc ha hok he, ?_, ?_⟩
    · intro q hq hne
      obtain rfl := Option.some.inj (ha.symm.trans hq)
      rw [resumeRun_quiet h hpc ha hok hne he]
      simp
    · intro c hc _
      right
      by_contra hne
      have hr : r ≠ s.generation := by
        rintro rfl
        exact hne ha
      rw [resumeRun_quiet h hpc ha hok hr he] at hc
      cases hc

theorem start_no_abort (s : State) (c : Nat) : Effect.abort c ∉ s.start.2 := by
  unfold State.start State.loopHead
  split
  · simp
  · simp [State.publish]

/-- A call from outside is no resumption; if it aborts a controller, it supersedes. -/
theorem call_undisturbed (ha : e.actor = none)
    (hc : e.supersedes = true ∨ ∀ c, Effect.abort c ∉ fx) : Undisturbed ⟨s, e, fx⟩ := by
  refine ⟨?_, ?_⟩
  · intro q hq
    rw [ha] at hq
    cases hq
  · intro c hmem _
    rcases hc with hs | hn
    · exact .inl hs
    · exact absurd hmem (hn c)

theorem control_undisturbed {epoch : Nat} {value : Control} :
    Undisturbed ⟨s, .control r epoch value, (s.control r epoch value).2⟩ := by
  have hno : ∀ c, Effect.abort c ∉ (s.control r epoch value).2 := by
    intro c
    unfold State.control
    split
    · simp
    · split <;> simp [State.publish]
  refine ⟨?_, ?_⟩
  · intro q hq hne
    obtain rfl := Option.some.inj hq
    unfold State.control
    rw [if_pos hne]
    simp
  · intro c hmem _
    exact absurd hmem (hno c)

/-- One allowed step keeps the invariant and leaves the current run alone. -/
theorem step_undisturbed (h : Inv s) (hok : Allowed s e) (he : step s e = some (s', fx)) :
    Inv s' ∧ Undisturbed ⟨s, e, fx⟩ := by
  cases e with
  | start =>
    obtain rfl := congrArg Prod.fst (Option.some.inj he)
    obtain rfl := congrArg Prod.snd (Option.some.inj he)
    exact ⟨h.start hok, call_undisturbed rfl (.inr (start_no_abort s))⟩
  | suspend =>
    cases he
    have h' : Inv { s with suspended := true } := h.congr rfl rfl rfl rfl
    exact ⟨h'.supersede .suspended hok, call_undisturbed rfl (.inl rfl)⟩
  | resume =>
    obtain rfl := congrArg Prod.fst (Option.some.inj he)
    obtain rfl := congrArg Prod.snd (Option.some.inj he)
    unfold State.resume
    split
    · exact ⟨h, call_undisturbed rfl (.inr (by simp))⟩
    · rename_i hs
      have h' : Inv { s with suspended := false } := h.congr rfl rfl rfl rfl
      exact ⟨h'.start (hok (by simpa using hs)), call_undisturbed rfl (.inr (start_no_abort _))⟩
  | invalidate =>
    cases he
    exact ⟨h.supersede .idle hok, call_undisturbed rfl (.inl rfl)⟩
  | stop =>
    cases he
    exact ⟨(h.supersede .idle hok).congr rfl rfl rfl rfl, call_undisturbed rfl (.inl rfl)⟩
  | subscribe l =>
    cases he
    exact ⟨h.congr rfl rfl rfl rfl, call_undisturbed rfl (.inr (by simp))⟩
  | unsubscribe l =>
    cases he
    exact ⟨h.congr rfl rfl rfl rfl, call_undisturbed rfl (.inr (by simp))⟩
  | control q epoch value =>
    simp only [step] at he
    split at he
    · obtain rfl := congrArg Prod.fst (Option.some.inj he)
      obtain rfl := congrArg Prod.snd (Option.some.inj he)
      exact ⟨h.control epoch value, control_undisturbed⟩
    · cases he
  | leaseGranted q epoch => exact resumed_undisturbed h rfl hok he
  | leaseRejected q error => exact resumed_undisturbed h rfl hok he
  | streamSettled q result => exact resumed_undisturbed h rfl hok he
  | expirySettled q fired => exact resumed_undisturbed h rfl hok he
  | raceResumed q => exact resumed_undisturbed h rfl hok he
  | leaseSettled q stale => exact resumed_undisturbed h rfl hok he
  | refreshSettled q result => exact resumed_undisturbed h rfl hok he
  | probeSettled q result => exact resumed_undisturbed h rfl hok he
  | reauthSettled q => exact resumed_undisturbed h rfl hok he
  | sleepSettled q fired => exact resumed_undisturbed h rfl hok he
  | runSettled q => exact resumed_undisturbed h rfl hok he

end Runs

/-- In every run of allowed steps, at every step, a superseded run publishes nothing, forwards nothing
and aborts no controller of the current run, and the current run keeps its controllers until it ends
or is superseded. -/
theorem superseded_run_is_harmless {tr : List (Entry State Event (List Effect))} {s : State}
    (h : Run step initial tr s) (hok : ∀ x ∈ tr, Allowed x.pre x.event) :
    ∀ x ∈ tr, Undisturbed x :=
  h.forall_entry (C := Allowed) (I := Inv) inv_initial
    (fun _ _ _ _ hi hk he => step_undisturbed hi hk he) hok

/-- A run is superseded while it waits for its lease, and is then granted one. -/
theorem suspended_run_is_harmless :
    ∃ tr s, Run step initial tr s ∧ tr.map (fun x => x.event.actor) = [none, none, some 1]
      ∧ ∀ x ∈ tr, Undisturbed x := by
  have hrun := (((@Run.start _ _ _ step initial).next (e := .start) rfl).next
    (e := .suspend) rfl).next (e := .leaseGranted 1 0) rfl
  refine ⟨_, _, hrun, rfl, superseded_run_is_harmless hrun ?_⟩
  intro x hx
  simp only [List.nil_append, List.cons_append, List.mem_cons, List.not_mem_nil, or_false] at hx
  rcases hx with rfl | rfl | rfl
  · intro _ r pc hpc
    cases hpc
  · intro pc hpc
    cases hpc
    simp
  · trivial

/-- The old run's stream fails only after the next run has replaced the controller. -/
def overlapping : List Event :=
  [.start, .leaseGranted 1 0, .suspend, .resume,
   .streamSettled 1 (.error { code := some .streamAborted, securityFailure := false }),
   .raceResumed 1]

/-- Run 1 is superseded, and its `finally` aborts the controller of run 3. -/
theorem superseded_run_aborts_successor :
    ¬ ∀ tr s, Run step initial tr s → ∀ x ∈ tr, Undisturbed x := by
  intro hall
  obtain ⟨⟨tr, t⟩, hx⟩ := Option.isSome_iff_exists.mp
    (show (exec step initial overlapping).isSome = true from rfl)
  have hlast : (exec step initial overlapping).map (fun p => p.1.getLast?.map fun x =>
      (x.event.actor, x.pre.generation, x.pre.owner 1, x.out))
      = some (some (some 1, 3, 3, [.abort 1])) := rfl
  rw [hx, Option.map_some, Option.some.injEq] at hlast
  obtain ⟨x, hmem, heq⟩ := Option.map_eq_some_iff.mp hlast
  simp only [Prod.mk.injEq] at heq
  obtain ⟨hactor, hgen, howner, hout⟩ := heq
  have hu := hall tr t (run_of_exec hx) x (List.mem_of_getLast? hmem)
  have hq := hu.quiet 1 hactor (by rw [hgen]; decide) (.abort 1) (by rw [hout]; simp)
  exact hq.2.2 1 rfl (by rw [howner, hgen])

end Network
end Yuance
