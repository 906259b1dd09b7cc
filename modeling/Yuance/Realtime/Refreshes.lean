import Mathlib

/-!
# Yuance.Realtime.Refreshes

The loop that both event coordinators of `frontend/packages/app-core/src` refresh their page with:
`scheduleRefresh` and `runRefreshLoop` of `work-item-events.js` and `notification-events.js`. The
loop awaits one refresh after another; what happens between is recorded in a log.

* `scheduleRefresh`, `afterRefresh`: an invalidation, and a refresh that is over.
* `RefreshLoop.Sound`: what holds of the flags and the log.
* `Sound.coalesced`: one refresh at a time, none lost, none after `dispose`.
-/

namespace Yuance
namespace Realtime

/-- What can be seen of a coordinator. -/
inductive Mark where
  | accepted (connectionId : String) (sequence : Int)
  | typing (users : List (Int × String))
  | releaseVersion (version : String)
  | navigate (path : String)
  | invalidated
  | started
  | settled
  | disposed
deriving DecidableEq

/-- The marks that the loop makes; the others are of what the events say. -/
def Mark.isOfLoop : Mark → Bool
  | .invalidated | .started | .settled | .disposed => true
  | _ => false

structure RefreshLoop where
  refreshing : Bool
  pendingRefresh : Bool
  disposed : Bool
  log : List Mark
deriving DecidableEq

namespace RefreshLoop

def initial : RefreshLoop := ⟨false, false, false, []⟩

def mark (m : Mark) (l : RefreshLoop) : RefreshLoop := { l with log := l.log ++ [m] }

/-- A turn of `runRefreshLoop` up to its `await`; a refresh that throws at once is over there, and
nothing is pending yet. -/
def runRefreshLoop (throws : Bool) (l : RefreshLoop) : RefreshLoop :=
  let begun := mark .started { l with pendingRefresh := false }
  if throws then mark .settled { begun with refreshing := false } else begun

def scheduleRefresh (throws : Bool) (l : RefreshLoop) : RefreshLoop :=
  if l.refreshing then { l with pendingRefresh := true }
  else runRefreshLoop throws { l with refreshing := true }

/-- `runRefreshLoop` behind its `await`, whether the refresh was fulfilled or rejected. -/
def afterRefresh (throws : Bool) (l : RefreshLoop) : RefreshLoop :=
  let l := mark .settled l
  if !l.disposed && l.pendingRefresh then runRefreshLoop throws l
  else { l with refreshing := false }

def dispose (l : RefreshLoop) : RefreshLoop :=
  mark .disposed { l with disposed := true, pendingRefresh := false }

end RefreshLoop

/-! ## The log -/

/-- Whether a refresh is in flight. -/
def inFlight (log : List Mark) : Nat := log.count Mark.started - log.count Mark.settled

/-- Some refresh was started behind the last invalidation. -/
def Fresh (log : List Mark) : Prop := ∀ after, .invalidated :: after <:+ log → .started ∈ after

/-- At most one refresh is in flight at a time; where none is and the coordinator was not disposed
of, one was started behind the last invalidation; and none starts behind `dispose`. -/
structure Coalesced (log : List Mark) : Prop where
  single : ∀ before, before <+: log → inFlight before ≤ 1
  fresh : inFlight log = 0 → .disposed ∉ log → Fresh log
  quiet : ∀ after, .disposed :: after <:+ log → .started ∉ after

section Log

variable {log : List Mark} {m : Mark}

theorem suffix_cases {first : Mark} {after : List Mark} (h : first :: after <:+ log ++ [m]) :
    (first = m ∧ after = []) ∨ ∃ rest, after = rest ++ [m] ∧ first :: rest <:+ log := by
  rcases List.suffix_concat_iff.mp h with hnil | ⟨front, heq, hfront⟩
  · cases hnil
  · cases front with
    | nil => exact .inl ⟨(List.cons.inj heq).1, (List.cons.inj heq).2⟩
    | cons f rest =>
      obtain ⟨rfl, rfl⟩ := List.cons.inj heq
      exact .inr ⟨rest, rfl, hfront⟩

theorem Fresh.append (h : Fresh log) (hm : m ≠ .invalidated) : Fresh (log ++ [m]) := by
  intro after hafter
  rcases suffix_cases hafter with ⟨heq, _⟩ | ⟨rest, rfl, hrest⟩
  · exact absurd heq.symm hm
  · exact List.mem_append_left _ (h rest hrest)

theorem fresh_started (log : List Mark) : Fresh (log ++ [Mark.started]) := by
  intro after hafter
  rcases suffix_cases hafter with ⟨heq, _⟩ | ⟨rest, rfl, _⟩
  · cases heq
  · exact List.mem_append_right _ (List.mem_singleton_self _)

end Log

/-! ## The flags -/

namespace RefreshLoop

/-- The flags say what the log says. -/
structure Sound (l : RefreshLoop) : Prop where
  counted : l.log.count Mark.started = l.log.count Mark.settled + if l.refreshing then 1 else 0
  single : ∀ before, before <+: l.log → inFlight before ≤ 1
  waiting : l.pendingRefresh = true → l.refreshing = true ∧ l.disposed = false
  fresh : l.disposed = false → l.pendingRefresh = false → Fresh l.log
  gone : l.disposed = true ↔ .disposed ∈ l.log
  quiet : ∀ after, .disposed :: after <:+ l.log → .started ∉ after

variable {l : RefreshLoop} {m : Mark} {throws : Bool}

theorem initial_sound : initial.Sound := by
  refine ⟨rfl, ?_, ?_, ?_, ?_, ?_⟩
  · intro before h
    rw [List.prefix_nil.mp h]
    exact Nat.zero_le 1
  · intro h
    cases h
  · intro _ _ after h
    cases List.suffix_nil.mp h
  · exact ⟨fun h => (Bool.false_ne_true h).elim, fun h => (List.not_mem_nil h).elim⟩
  · intro after h
    cases List.suffix_nil.mp h

theorem single_append {log : List Mark} (h : ∀ before, before <+: log → inFlight before ≤ 1)
    (hwhole : inFlight (log ++ [m]) ≤ 1) :
    ∀ before, before <+: log ++ [m] → inFlight before ≤ 1 := by
  intro before hbefore
  rcases List.prefix_concat_iff.mp hbefore with rfl | hfront
  · exact hwhole
  · exact h before hfront

theorem quiet_append {log : List Mark} (h : ∀ after, .disposed :: after <:+ log → .started ∉ after)
    (hm : m = .started → .disposed ∉ log) :
    ∀ after, .disposed :: after <:+ log ++ [m] → .started ∉ after := by
  intro after hafter
  rcases suffix_cases hafter with ⟨_, rfl⟩ | ⟨rest, rfl, hrest⟩
  · exact List.not_mem_nil
  · rw [List.mem_append, List.mem_singleton]
    rintro (hin | rfl)
    · exact h rest hrest hin
    · exact hm rfl (hrest.mem List.mem_cons_self)

/-- Marks that are none of the loop's own. -/
theorem Sound.mark (h : l.Sound) (hm : m.isOfLoop = false) : (l.mark m).Sound := by
  obtain ⟨hcounted, hsingle, hwaiting, hfresh, hgone, hquiet⟩ := h
  have hother : ∀ own : Mark, own.isOfLoop = true → m ≠ own := by
    rintro own hown rfl
    exact Bool.false_ne_true (hm.symm.trans hown)
  have hstart := hother .started rfl
  have hsettle := hother .settled rfl
  have hinvalid := hother .invalidated rfl
  have hdispose := hother .disposed rfl
  have hstarted : (l.log ++ [m]).count Mark.started = l.log.count Mark.started := by
    rw [List.count_append, List.count_singleton, if_neg (by simpa using hstart), Nat.add_zero]
  have hsettled : (l.log ++ [m]).count Mark.settled = l.log.count Mark.settled := by
    rw [List.count_append, List.count_singleton, if_neg (by simpa using hsettle), Nat.add_zero]
  refine ⟨?_, ?_, hwaiting, ?_, ?_, ?_⟩
  · show (l.log ++ [m]).count Mark.started = (l.log ++ [m]).count Mark.settled + _
    rw [hstarted, hsettled]
    exact hcounted
  · refine single_append hsingle ?_
    unfold inFlight
    rw [hstarted, hsettled]
    exact hsingle l.log List.prefix_rfl
  · exact fun hd hp => (hfresh hd hp).append hinvalid
  · refine hgone.trans (Iff.trans ?_ List.mem_append.symm)
    rw [List.mem_singleton]
    exact ⟨.inl, fun hor => hor.elim (fun hin => hin) fun heq => absurd heq.symm hdispose⟩
  · exact quiet_append hquiet fun heq => absurd heq hstart

theorem count_started (log : List Mark) :
    (log ++ [Mark.started]).count Mark.started = log.count Mark.started + 1 ∧
      (log ++ [Mark.started]).count Mark.settled = log.count Mark.settled := by
  rw [List.count_append, List.count_append]
  exact ⟨rfl, rfl⟩

theorem count_settled (log : List Mark) :
    (log ++ [Mark.settled]).count Mark.started = log.count Mark.started ∧
      (log ++ [Mark.settled]).count Mark.settled = log.count Mark.settled + 1 := by
  rw [List.count_append, List.count_append]
  exact ⟨rfl, rfl⟩

/-- A refresh that is over, whatever comes next. -/
theorem inFlight_settled {log : List Mark} (h : inFlight log ≤ 1) :
    inFlight (log ++ [Mark.settled]) ≤ 1 := by
  unfold inFlight at h ⊢
  obtain ⟨hstarted, hsettled⟩ := count_settled log
  omega

/-- A turn of the loop, from a state with no refresh in flight. -/
theorem runRefreshLoop_sound (hcounted : l.log.count Mark.started = l.log.count Mark.settled)
    (hsingle : ∀ before, before <+: l.log → inFlight before ≤ 1) (hrefreshing : l.refreshing = true)
    (hdisposed : l.disposed = false) (hgone : .disposed ∉ l.log)
    (hquiet : ∀ after, .disposed :: after <:+ l.log → .started ∉ after) :
    (runRefreshLoop throws l).Sound := by
  obtain ⟨hstarted, hsettled⟩ := count_started l.log
  have hbegun : (mark .started { l with pendingRefresh := false }).Sound := by
    refine ⟨?_, ?_, ?_, ?_, ?_, ?_⟩
    · show (l.log ++ [Mark.started]).count Mark.started =
        (l.log ++ [Mark.started]).count Mark.settled + if l.refreshing then 1 else 0
      rw [if_pos hrefreshing]
      omega
    · refine single_append hsingle ?_
      show (l.log ++ [Mark.started]).count Mark.started -
        (l.log ++ [Mark.started]).count Mark.settled ≤ 1
      omega
    · intro hpending
      cases hpending
    · exact fun _ _ => fresh_started l.log
    · show l.disposed = true ↔ _ ∈ l.log ++ [Mark.started]
      rw [hdisposed, List.mem_append, List.mem_singleton]
      refine ⟨fun h => (Bool.false_ne_true h).elim, ?_⟩
      rintro (hin | heq)
      · exact absurd hin hgone
      · cases heq
    · exact quiet_append hquiet fun _ => hgone
  unfold runRefreshLoop
  dsimp only
  split
  · obtain ⟨hcounted', hsingle', _, hfresh', hgone', hquiet'⟩ := hbegun
    obtain ⟨hover, hover'⟩ := count_settled (l.log ++ [Mark.started])
    refine ⟨?_, ?_, ?_, ?_, ?_, ?_⟩
    · show (l.log ++ [Mark.started] ++ [Mark.settled]).count Mark.started =
        (l.log ++ [Mark.started] ++ [Mark.settled]).count Mark.settled + 0
      omega
    · exact single_append hsingle' (inFlight_settled (hsingle' _ List.prefix_rfl))
    · intro hpending
      cases hpending
    · exact fun hd hp => (hfresh' hd hp).append fun heq => nomatch heq
    · refine hgone'.trans (Iff.trans ?_ List.mem_append.symm)
      rw [List.mem_singleton]
      exact ⟨.inl, fun hor => hor.elim (fun hin => hin) fun heq => nomatch heq⟩
    · exact quiet_append hquiet' fun heq => nomatch heq
  · exact hbegun

/-- An invalidation is marked, and starts a refresh or waits for the one in flight. -/
theorem Sound.invalidate (h : l.Sound) (hdisposed : l.disposed = false) :
    (scheduleRefresh throws (l.mark .invalidated)).Sound := by
  obtain ⟨hcounted, hsingle, hwaiting, hfresh, hgone, hquiet⟩ := h
  have hstarted : (l.log ++ [Mark.invalidated]).count Mark.started = l.log.count Mark.started := by
    rw [List.count_append]
    rfl
  have hsettled : (l.log ++ [Mark.invalidated]).count Mark.settled = l.log.count Mark.settled := by
    rw [List.count_append]
    rfl
  have hsingle' : ∀ before, before <+: l.log ++ [Mark.invalidated] → inFlight before ≤ 1 := by
    refine single_append hsingle ?_
    unfold inFlight
    rw [hstarted, hsettled]
    exact hsingle l.log List.prefix_rfl
  have hquiet' := quiet_append hquiet (m := .invalidated) fun heq => nomatch heq
  have hnone : .disposed ∉ l.log ++ [Mark.invalidated] := by
    rw [List.mem_append, List.mem_singleton]
    rintro (hin | heq)
    · exact Bool.false_ne_true (hdisposed.symm.trans (hgone.mpr hin))
    · cases heq
  unfold scheduleRefresh
  split
  · rename_i hrefreshing
    have hbusy : l.refreshing = true := hrefreshing
    refine ⟨?_, hsingle', fun _ => ⟨hbusy, hdisposed⟩, ?_, ?_, hquiet'⟩
    · show (l.log ++ [Mark.invalidated]).count Mark.started =
        (l.log ++ [Mark.invalidated]).count Mark.settled + if l.refreshing then 1 else 0
      rw [hstarted, hsettled]
      exact hcounted
    · intro _ hpending
      cases hpending
    · exact ⟨fun hd => (Bool.false_ne_true (hdisposed.symm.trans hd)).elim,
        fun hin => absurd hin hnone⟩
  · rename_i hidle
    have hfree : l.refreshing = false := Bool.eq_false_iff.mpr hidle
    refine runRefreshLoop_sound ?_ hsingle' rfl hdisposed hnone hquiet'
    show (l.log ++ [Mark.invalidated]).count Mark.started =
      (l.log ++ [Mark.invalidated]).count Mark.settled
    rw [hstarted, hsettled, hcounted, hfree]
    rfl

/-- A refresh that is over. -/
theorem Sound.afterRefresh (h : l.Sound) (hflight : 0 < inFlight l.log) :
    (afterRefresh throws l).Sound := by
  obtain ⟨hcounted, hsingle, hwaiting, hfresh, hgone, hquiet⟩ := h
  obtain ⟨hstarted, hsettled⟩ := count_settled l.log
  have hrefreshing : l.refreshing = true := by
    by_contra hidle
    rw [if_neg hidle] at hcounted
    unfold inFlight at hflight
    omega
  rw [if_pos hrefreshing] at hcounted
  have hsingle' := single_append hsingle (inFlight_settled (hsingle _ List.prefix_rfl))
  have hquiet' := quiet_append hquiet (m := .settled) fun heq => nomatch heq
  have hgone' : .disposed ∈ l.log ++ [Mark.settled] ↔ .disposed ∈ l.log := by
    rw [List.mem_append, List.mem_singleton]
    refine ⟨?_, .inl⟩
    rintro (hin | heq)
    · exact hin
    · cases heq
  unfold RefreshLoop.afterRefresh
  dsimp only
  split
  · rename_i hagain
    obtain ⟨hdisposed, _⟩ := Bool.and_eq_true_iff.mp hagain
    have hnot : (!l.disposed) = true := hdisposed
    have hdisposed' : l.disposed = false := by simpa only [Bool.not_eq_true'] using hnot
    refine runRefreshLoop_sound ?_ hsingle' hrefreshing hdisposed' ?_ hquiet'
    · show (l.log ++ [Mark.settled]).count Mark.started =
        (l.log ++ [Mark.settled]).count Mark.settled
      omega
    · intro hin
      exact Bool.false_ne_true (hdisposed'.symm.trans (hgone.mpr (hgone'.mp hin)))
  · rename_i hdone
    refine ⟨?_, hsingle', ?_, ?_, hgone.trans hgone'.symm, hquiet'⟩
    · show (l.log ++ [Mark.settled]).count Mark.started =
        (l.log ++ [Mark.settled]).count Mark.settled + 0
      omega
    · intro hpending
      have hdisposed := (hwaiting hpending).2
      refine absurd ?_ hdone
      show (!l.disposed && l.pendingRefresh) = true
      rw [hdisposed, show l.pendingRefresh = true from hpending]
      rfl
    · exact fun hd hp => (hfresh hd hp).append fun heq => nomatch heq

theorem Sound.dispose (h : l.Sound) : l.dispose.Sound := by
  obtain ⟨hcounted, hsingle, hwaiting, hfresh, hgone, hquiet⟩ := h
  have hstarted : (l.log ++ [Mark.disposed]).count Mark.started = l.log.count Mark.started := by
    rw [List.count_append]
    rfl
  have hsettled : (l.log ++ [Mark.disposed]).count Mark.settled = l.log.count Mark.settled := by
    rw [List.count_append]
    rfl
  refine ⟨?_, ?_, ?_, ?_, ?_, ?_⟩
  · show (l.log ++ [Mark.disposed]).count Mark.started =
      (l.log ++ [Mark.disposed]).count Mark.settled + if l.refreshing then 1 else 0
    rw [hstarted, hsettled]
    exact hcounted
  · refine single_append hsingle ?_
    unfold inFlight
    rw [hstarted, hsettled]
    exact hsingle l.log List.prefix_rfl
  · intro hpending
    cases hpending
  · intro hdisposed
    cases hdisposed
  · exact ⟨fun _ => List.mem_append_right _ (List.mem_singleton_self _), fun _ => rfl⟩
  · exact quiet_append hquiet fun heq => nomatch heq

/-- What the flags are good for. -/
theorem Sound.coalesced (h : l.Sound) : Coalesced l.log := by
  refine ⟨h.single, fun hnone hdisposed => ?_, h.quiet⟩
  have hidle : l.refreshing = false := by
    by_contra hbusy
    have hcounted := h.counted
    rw [if_pos (eq_true_of_ne_false hbusy)] at hcounted
    unfold inFlight at hnone
    omega
  refine h.fresh (Bool.eq_false_iff.mpr fun hgone => hdisposed (h.gone.mp hgone)) ?_
  refine Bool.eq_false_iff.mpr fun hpending => ?_
  exact Bool.false_ne_true (hidle.symm.trans (h.waiting hpending).1)

end RefreshLoop

end Realtime
end Yuance
