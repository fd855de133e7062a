import AsioTcp.Lib.Transition

/-!
# `st_timer`

The timers of one object, each under its id. What `on_timer` does is left
open: while a handler is in it, any timer can be set, started or stopped, by
the handler itself or by another thread. As the class asks for, calls of
`set_timer` and `start_timer` for one timer do not overlap, so each is one step.
A handler takes no lock, so its test of the status and the `start_timer` after
it are two; and the two lines of `stop_timer` are two, so that a handler can
come between them. `stop_all_timer` stops one timer after the other.
-/

namespace AsioTcp.Wrapper

open Transition

/-- `timer_info::timer_status` -/
inductive TimerStatus
  | ok
  | canceled
  deriving DecidableEq

/-- `timer_info`. A wait that has been started on the `deadline_timer` is
`pending` until its time has come or it is cancelled; then its handler is in
the queue, with or without an error. -/
structure TimerInfo where
  status : TimerStatus
  milliseconds : Nat
  userData : Nat
  pending : Nat
  expired : Nat
  aborted : Nat
  /-- calls of `stop_timer` that have cancelled the wait and are to set the status -/
  stopping : Nat
  /-- handlers that are in `on_timer` -/
  running : Nat
  /-- handlers that have found `TIMER_OK` and are to call `start_timer` -/
  restarting : Nat
  /-- how often a wait has been started, and `on_timer` called -/
  starts : Nat
  calls : Nat
  deriving DecidableEq

namespace TimerInfo

def fresh : TimerInfo := ⟨.ok, 0, 0, 0, 0, 0, 0, 0, 0, 0, 0⟩

/-- `start_timer(object_ctype&)`: `expires_from_now` cancels the waits that are pending. -/
def startTimer (ti : TimerInfo) : TimerInfo :=
  { ti with aborted := ti.aborted + ti.pending, pending := 1, starts := ti.starts + 1 }

/-- `stop_timer(object_type&)` as one step; a handler that comes between its lines
leaves what one leaves that has tested the status before. -/
def stopTimer (ti : TimerInfo) : TimerInfo :=
  { ti with aborted := ti.aborted + ti.pending, pending := 0, status := .canceled }

/-- The first line of `stop_timer` -/
def cancel (ti : TimerInfo) : TimerInfo :=
  { ti with aborted := ti.aborted + ti.pending, pending := 0, stopping := ti.stopping + 1 }

/-- The second line -/
def setCanceled (ti : TimerInfo) : Option TimerInfo :=
  if 0 < ti.stopping then some { ti with status := .canceled, stopping := ti.stopping - 1 }
  else none

/-- `set_timer`, for a timer that exists -/
def setTimer (ti : TimerInfo) (milliseconds userData : Nat) : TimerInfo :=
  { ti with status := .ok, milliseconds, userData }.startTimer

/-- The time has come. -/
def expire (ti : TimerInfo) : Option TimerInfo :=
  if 0 < ti.pending then
    some { ti with expired := ti.expired + ti.pending, pending := 0 }
  else none

/-- `timer_handler` without an error, up to `on_timer`. -/
def handlerBegins (ti : TimerInfo) : Option TimerInfo :=
  if 0 < ti.expired then
    some { ti with expired := ti.expired - 1, running := ti.running + 1, calls := ti.calls + 1 }
  else none

/-- `timer_handler` once `on_timer` has returned `again`: the test of the status. -/
def handlerTests (ti : TimerInfo) (again : Bool) : Option TimerInfo :=
  if 0 < ti.running then
    let ti := { ti with running := ti.running - 1 }
    some (if again ∧ ti.status = .ok then { ti with restarting := ti.restarting + 1 } else ti)
  else none

/-- The last line of `timer_handler` -/
def handlerRestarts (ti : TimerInfo) : Option TimerInfo :=
  if 0 < ti.restarting then some { ti with restarting := ti.restarting - 1 }.startTimer else none

end TimerInfo

/-- `timer_can` -/
abbrev TimerCan := UInt8 → Option TimerInfo

namespace TimerCan

def put (timers : TimerCan) (id : UInt8) (ti : TimerInfo) : TimerCan :=
  fun id' => if id' = id then some ti else timers id'

def updateTimerInfo (timers : TimerCan) (id : UInt8) (milliseconds userData : Nat)
    (start : Bool) : TimerCan :=
  let ti := (timers id).getD .fresh
  let ti := { ti with status := .ok, milliseconds, userData }
  timers.put id (if start then ti.startTimer else ti)

/-- `start_timer(unsigned char)`; it leaves the status as it is. -/
def startTimer (timers : TimerCan) (id : UInt8) : TimerCan :=
  match timers id with
  | none => timers
  | some ti => timers.put id ti.startTimer

/-- `stop_timer(unsigned char)`, up to its last line -/
def stopTimer (timers : TimerCan) (id : UInt8) : TimerCan :=
  match timers id with
  | none => timers
  | some ti => timers.put id ti.cancel

/-- A step of one of the waits of a timer, or of a call that has found it. -/
def wait (timers : TimerCan) (id : UInt8) (f : TimerInfo → Option TimerInfo) : Option TimerCan :=
  (timers id).bind fun ti => (f ti).map (timers.put id)

inductive Action
  | updateTimerInfo (id : UInt8) (milliseconds userData : Nat) (start : Bool)
  | startTimer (id : UInt8)
  | stopTimer (id : UInt8)
  | setCanceled (id : UInt8)
  | expire (id : UInt8)
  | handlerBegins (id : UInt8)
  | handlerTests (id : UInt8) (again : Bool)
  | handlerRestarts (id : UInt8)

def step (timers : TimerCan) : Action → Option TimerCan
  | .updateTimerInfo id milliseconds userData start =>
    some (timers.updateTimerInfo id milliseconds userData start)
  | .startTimer id => some (timers.startTimer id)
  | .stopTimer id => some (timers.stopTimer id)
  | .setCanceled id => timers.wait id TimerInfo.setCanceled
  | .expire id => timers.wait id TimerInfo.expire
  | .handlerBegins id => timers.wait id TimerInfo.handlerBegins
  | .handlerTests id again => timers.wait id (·.handlerTests again)
  | .handlerRestarts id => timers.wait id TimerInfo.handlerRestarts

def start : TimerCan := fun _ => none

@[simp] theorem put_self (timers : TimerCan) (id : UInt8) (ti : TimerInfo) :
    timers.put id ti id = some ti := if_pos rfl

theorem put_other (timers : TimerCan) {id id' : UInt8} (ti : TimerInfo) (h : id' ≠ id) :
    timers.put id ti id' = timers id' := if_neg h

/-- What a step can make of one timer: it may be new, and has been changed in
one of these ways if it has been changed. -/
inductive Change (a : Action) (id : UInt8) : Option TimerInfo → TimerInfo → Prop
  | same (ti : TimerInfo) : Change a id (some ti) ti
  | update (o : Option TimerInfo) (milliseconds userData : Nat) (start : Bool) :
      a = .updateTimerInfo id milliseconds userData start →
      Change a id o (if start then
          { o.getD .fresh with status := .ok, milliseconds, userData }.startTimer
        else { o.getD .fresh with status := .ok, milliseconds, userData })
  | start (ti : TimerInfo) : a = .startTimer id → Change a id (some ti) ti.startTimer
  | cancel (ti : TimerInfo) : Change a id (some ti) ti.cancel
  | setCanceled (ti ti' : TimerInfo) : ti.setCanceled = some ti' → Change a id (some ti) ti'
  | expire (ti ti' : TimerInfo) : ti.expire = some ti' → Change a id (some ti) ti'
  | handlerBegins (ti ti' : TimerInfo) : ti.handlerBegins = some ti' → Change a id (some ti) ti'
  | handlerTests (ti ti' : TimerInfo) (again : Bool) :
      ti.handlerTests again = some ti' → Change a id (some ti) ti'
  | handlerRestarts (ti ti' : TimerInfo) :
      ti.handlerRestarts = some ti' → Change a id (some ti) ti'

theorem put_change {timers : TimerCan} {a : Action} {id id' : UInt8} {new ti' : TimerInfo}
    (hnew : id = id' → Change a id (timers id) new) (hti' : timers.put id' new id = some ti') :
    Change a id (timers id) ti' := by
  by_cases hid : id = id'
  · rw [← hid, put_self] at hti'
    cases hti'
    exact hnew hid
  · rw [put_other timers new hid] at hti'
    rw [hti']
    exact .same ti'

theorem wait_change {timers timers' : TimerCan} {a : Action} {f : TimerInfo → Option TimerInfo}
    {id id' : UInt8} {ti' : TimerInfo} (h : timers.wait id' f = some timers')
    (hf : ∀ ti ti', f ti = some ti' → Change a id (some ti) ti') (hti' : timers' id = some ti') :
    Change a id (timers id) ti' := by
  obtain ⟨ti, hti, hmap⟩ := Option.bind_eq_some_iff.mp h
  obtain ⟨new, hnew, rfl⟩ := Option.map_eq_some_iff.mp hmap
  refine put_change (fun hid => ?_) hti'
  rw [hid, hti, ← hid]
  exact hf ti new hnew

theorem step_change {timers timers' : TimerCan} {a : Action} {id : UInt8} {ti' : TimerInfo}
    (h : step timers a = some timers') (hti' : timers' id = some ti') :
    Change a id (timers id) ti' := by
  cases a with
  | updateTimerInfo id' milliseconds userData start =>
    cases h
    refine put_change (fun hid => ?_) hti'
    subst hid
    exact .update _ milliseconds userData start rfl
  | startTimer id' =>
    cases h
    rw [startTimer] at hti'
    cases hti : timers id' with
    | none =>
      simp only [hti] at hti'
      rw [hti']
      exact .same ti'
    | some ti =>
      rw [hti] at hti'
      refine put_change (fun hid => ?_) hti'
      rw [hid, hti]
      exact .start ti rfl
  | stopTimer id' =>
    cases h
    rw [stopTimer] at hti'
    cases hti : timers id' with
    | none =>
      simp only [hti] at hti'
      rw [hti']
      exact .same ti'
    | some ti =>
      rw [hti] at hti'
      refine put_change (fun hid => ?_) hti'
      rw [hid, hti]
      exact .cancel ti
  | setCanceled id' => exact wait_change h (fun ti ti' => .setCanceled ti ti') hti'
  | expire id' => exact wait_change h (fun ti ti' => .expire ti ti') hti'
  | handlerBegins id' => exact wait_change h (fun ti ti' => .handlerBegins ti ti') hti'
  | handlerTests id' again =>
    exact wait_change h (fun ti ti' => .handlerTests ti ti' again) hti'
  | handlerRestarts id' => exact wait_change h (fun ti ti' => .handlerRestarts ti ti') hti'

end TimerCan

/-! ## Each wait ends once -/

namespace TimerInfo

/-- Every wait that has been started is pending, in the queue, cancelled, or
has led to one call of `on_timer`. -/
structure Counted (ti : TimerInfo) : Prop where
  pending : ti.pending ≤ 1
  starts : ti.calls + ti.pending + ti.expired + ti.aborted = ti.starts

theorem fresh_counted : fresh.Counted := ⟨by decide, by decide⟩

theorem Counted.startTimer {ti : TimerInfo} (h : ti.Counted) : ti.startTimer.Counted := by
  have hstarts := h.starts
  refine ⟨Nat.le_refl 1, ?_⟩
  simp only [TimerInfo.startTimer]
  omega

theorem Counted.cancel {ti : TimerInfo} (h : ti.Counted) : ti.cancel.Counted := by
  have hstarts := h.starts
  refine ⟨Nat.zero_le 1, ?_⟩
  simp only [TimerInfo.cancel]
  omega

theorem setCanceled_eq_some {ti ti' : TimerInfo} (h : ti.setCanceled = some ti') :
    0 < ti.stopping ∧ ti' = { ti with status := .canceled, stopping := ti.stopping - 1 } := by
  unfold setCanceled at h
  split at h
  · exact ⟨by assumption, (Option.some.inj h).symm⟩
  · cases h

theorem expire_eq_some {ti ti' : TimerInfo} (h : ti.expire = some ti') :
    0 < ti.pending ∧ ti' = { ti with expired := ti.expired + ti.pending, pending := 0 } := by
  unfold expire at h
  split at h
  · exact ⟨by assumption, (Option.some.inj h).symm⟩
  · cases h

theorem handlerBegins_eq_some {ti ti' : TimerInfo} (h : ti.handlerBegins = some ti') :
    0 < ti.expired ∧ ti' =
      { ti with expired := ti.expired - 1, running := ti.running + 1, calls := ti.calls + 1 } := by
  unfold handlerBegins at h
  split at h
  · exact ⟨by assumption, (Option.some.inj h).symm⟩
  · cases h

theorem handlerTests_eq_some {ti ti' : TimerInfo} {again : Bool}
    (h : ti.handlerTests again = some ti') :
    0 < ti.running ∧
      ((again = true ∧ ti.status = .ok ∧
          ti' = { ti with running := ti.running - 1, restarting := ti.restarting + 1 }) ∨
        (¬ (again = true ∧ ti.status = .ok) ∧ ti' = { ti with running := ti.running - 1 })) := by
  unfold handlerTests at h
  split at h
  · rename_i hrunning
    simp only [Option.some.injEq] at h
    split at h
    · rename_i hboth
      exact ⟨hrunning, .inl ⟨hboth.1, hboth.2, h.symm⟩⟩
    · rename_i hnot
      exact ⟨hrunning, .inr ⟨hnot, h.symm⟩⟩
  · cases h

theorem handlerRestarts_eq_some {ti ti' : TimerInfo} (h : ti.handlerRestarts = some ti') :
    0 < ti.restarting ∧ ti' = { ti with restarting := ti.restarting - 1 }.startTimer := by
  unfold handlerRestarts at h
  split at h
  · exact ⟨by assumption, (Option.some.inj h).symm⟩
  · cases h

end TimerInfo

namespace TimerCan

open TimerInfo

theorem Change.counted {a : Action} {id : UInt8} {o : Option TimerInfo} {ti' : TimerInfo}
    (h : Change a id o ti') (ho : ∀ ti, o = some ti → ti.Counted) : ti'.Counted := by
  cases h with
  | same => exact ho _ rfl
  | update _ milliseconds userData start _ =>
    have hold : (o.getD .fresh).Counted := by
      cases o with
      | none => exact fresh_counted
      | some ti => exact ho ti rfl
    have hset : { o.getD .fresh with status := .ok, milliseconds, userData }.Counted :=
      ⟨hold.pending, hold.starts⟩
    split
    · exact hset.startTimer
    · exact hset
  | start ti _ => exact (ho ti rfl).startTimer
  | cancel ti => exact (ho ti rfl).cancel
  | setCanceled ti _ hs =>
    obtain ⟨_, rfl⟩ := setCanceled_eq_some hs
    exact ⟨(ho ti rfl).pending, (ho ti rfl).starts⟩
  | expire ti _ hs =>
    obtain ⟨_, rfl⟩ := expire_eq_some hs
    have hstarts := (ho ti rfl).starts
    exact ⟨Nat.zero_le 1, by simp only; omega⟩
  | handlerBegins ti _ hs =>
    obtain ⟨_, rfl⟩ := handlerBegins_eq_some hs
    have hstarts := (ho ti rfl).starts
    exact ⟨(ho ti rfl).pending, by simp only; omega⟩
  | handlerTests ti _ again hs =>
    obtain ⟨_, ⟨_, _, rfl⟩ | ⟨_, rfl⟩⟩ := handlerTests_eq_some hs
    · exact ⟨(ho ti rfl).pending, (ho ti rfl).starts⟩
    · exact ⟨(ho ti rfl).pending, (ho ti rfl).starts⟩
  | handlerRestarts ti _ hs =>
    obtain ⟨_, rfl⟩ := handlerRestarts_eq_some hs
    have hless : { ti with restarting := ti.restarting - 1 }.Counted :=
      ⟨(ho ti rfl).pending, (ho ti rfl).starts⟩
    exact hless.startTimer

theorem reach_counted {s : TimerCan} (h : Reach step always start s) (id : UInt8) :
    ∀ ti, s id = some ti → ti.Counted := by
  refine Reach.invariant (P := fun s => ∀ ti, s id = some ti → ti.Counted) ?_ ?_ h
  · intro ti hnone
    cases hnone
  · intro s a s' _ ih _ hs ti' hti'
    exact (step_change hs hti').counted ih

/-- **Whatever `on_timer` does**: no timer waits twice at a time, and each wait
that has been started leads to one call of `on_timer` at most. -/
theorem timer_once (s : TimerCan) (h : Reach step always start s) (id : UInt8) (ti : TimerInfo)
    (hti : s id = some ti) :
    ti.pending ≤ 1 ∧ ti.calls + ti.pending + ti.expired + ti.aborted = ti.starts :=
  ⟨(reach_counted h id ti hti).pending, (reach_counted h id ti hti).starts⟩

/-- A timer that is set again while its handler is in `on_timer`. -/
theorem timer_once_twice : ∃ (s : TimerCan) (ti : TimerInfo), s 2 = some ti ∧
    ti.starts = 3 ∧ ti.aborted = 1 ∧
    ti.calls + ti.pending + ti.expired + ti.aborted = ti.starts := by
  let acts : List Action := [.updateTimerInfo 2 50 0 true, .expire 2, .handlerBegins 2,
    .updateTimerInfo 2 50 0 true, .handlerTests 2 true, .handlerRestarts 2]
  have hrun : (exec step start acts).bind (fun s => s 2) =
      some ⟨.ok, 50, 0, 1, 0, 1, 0, 0, 0, 3, 1⟩ := by
    decide +kernel
  obtain ⟨s, hs, hti⟩ := Option.bind_eq_some_iff.mp hrun
  exact ⟨s, _, hti, rfl, rfl, (timer_once s (Reach.of_exec acts hs) 2 _ hti).2⟩

/-! ## Stopping -/

/-- The action neither sets nor starts timer `id`. -/
def LeavesAlone (id : UInt8) : TimerCan → Action → Prop
  | _, .updateTimerInfo id' _ _ _ => id' ≠ id
  | _, .startTimer id' => id' ≠ id
  | _, _ => True

instance (id : UInt8) (s : TimerCan) (a : Action) : Decidable (LeavesAlone id s a) := by
  cases a <;> unfold LeavesAlone <;> infer_instance

/-- A timer that was `ti` when `stop_timer` returned, some time later. -/
structure Stopped (ti ti' : TimerInfo) : Prop where
  status : ti'.status = .canceled
  starts : ti'.starts + ti'.restarting = ti.starts + ti.restarting
  pending : ti'.pending + ti'.restarting ≤ ti.pending + ti.restarting
  calls : ti'.calls + ti'.expired + ti'.pending + ti'.restarting ≤
    ti.calls + ti.expired + ti.pending + ti.restarting

theorem Stopped.startTimer {ti old : TimerInfo} (h : Stopped ti old) (hpos : 0 < old.restarting) :
    Stopped ti { old with restarting := old.restarting - 1 }.startTimer := by
  obtain ⟨hstatus, hstarts, hpending, hcalls⟩ := h
  refine ⟨hstatus, ?_, ?_, ?_⟩ <;>
    simp only [TimerInfo.startTimer] <;> omega

theorem Change.stopped {ti new : TimerInfo} {s : TimerCan} {a : Action} {id : UInt8}
    {o : Option TimerInfo} (hok : LeavesAlone id s a) (h : Change a id o new)
    (ho : ∀ old, o = some old → Stopped ti old) : Stopped ti new := by
  cases h with
  | same => exact ho _ rfl
  | update _ milliseconds userData start ha =>
    subst ha
    exact absurd rfl hok
  | start _ ha =>
    subst ha
    exact absurd rfl hok
  | cancel old =>
    obtain ⟨hstatus, hstarts, hpending, hcalls⟩ := ho old rfl
    exact ⟨hstatus, hstarts, by simp only [TimerInfo.cancel]; omega,
      by simp only [TimerInfo.cancel]; omega⟩
  | setCanceled old _ hs =>
    obtain ⟨_, rfl⟩ := setCanceled_eq_some hs
    obtain ⟨hstatus, hstarts, hpending, hcalls⟩ := ho old rfl
    exact ⟨rfl, hstarts, hpending, hcalls⟩
  | expire old _ hs =>
    obtain ⟨_, rfl⟩ := expire_eq_some hs
    obtain ⟨hstatus, hstarts, hpending, hcalls⟩ := ho old rfl
    exact ⟨hstatus, hstarts, by simp only; omega, by simp only; omega⟩
  | handlerBegins old _ hs =>
    obtain ⟨hpos, rfl⟩ := handlerBegins_eq_some hs
    obtain ⟨hstatus, hstarts, hpending, hcalls⟩ := ho old rfl
    exact ⟨hstatus, hstarts, hpending, by simp only; omega⟩
  | handlerTests old _ again hs =>
    obtain ⟨hstatus, hstarts, hpending, hcalls⟩ := ho old rfl
    obtain ⟨_, ⟨_, hstill, _⟩ | ⟨_, rfl⟩⟩ := handlerTests_eq_some hs
    · cases hstatus.symm.trans hstill
    · exact ⟨hstatus, hstarts, hpending, hcalls⟩
  | handlerRestarts old _ hs =>
    obtain ⟨hpos, rfl⟩ := handlerRestarts_eq_some hs
    exact (ho old rfl).startTimer hpos

/-- **A timer that has been stopped.** From the return of `stop_timer` until the
timer is set or started again, its status stays as it is, and waits are started
for it by those handlers only that had found `TIMER_OK` by then, once each. If
there is none of them, and none has started a wait between the two lines of
`stop_timer`, the timer does not wait and no wait is started for it, also not by
a handler that was in `on_timer`, and only the handlers that were in the queue by
then still call `on_timer`. -/
theorem timer_stops (s stopped later : TimerCan) (id : UInt8) (ti ti' : TimerInfo)
    (hstop : step s (.setCanceled id) = some stopped) (hti : stopped id = some ti)
    (h : Reach step (LeavesAlone id) stopped later) (hti' : later id = some ti') :
    ti'.status = .canceled ∧ ti'.starts + ti'.restarting = ti.starts + ti.restarting ∧
      (ti.pending = 0 → ti.restarting = 0 →
        ti'.pending = 0 ∧ ti'.starts = ti.starts ∧ ti'.calls ≤ ti.calls + ti.expired) := by
  have hstatus : ti.status = .canceled := by
    obtain ⟨old, hold, hmap⟩ := Option.bind_eq_some_iff.mp hstop
    obtain ⟨new, hnew, rfl⟩ := Option.map_eq_some_iff.mp hmap
    obtain ⟨_, rfl⟩ := setCanceled_eq_some hnew
    rw [put_self] at hti
    cases hti
    rfl
  have hall : ∀ ti', later id = some ti' → Stopped ti ti' := by
    refine Reach.invariant (P := fun s => ∀ ti', s id = some ti' → Stopped ti ti') ?_ ?_ h
    · intro ti' hti'
      cases hti.symm.trans hti'
      exact ⟨hstatus, rfl, Nat.le_refl _, Nat.le_refl _⟩
    · intro s a s' _ ih hok hs ti' hti'
      exact (step_change hs hti').stopped hok ih
  obtain ⟨hcanceled, hstarts, hpending, hcalls⟩ := hall ti' hti'
  exact ⟨hcanceled, hstarts, fun hzero hnone => ⟨by omega, by omega, by omega⟩⟩

/-- A timer is stopped while one handler is in `on_timer` and another wait has
just expired: that one is called once more, and nothing after it. -/
theorem timer_stops_late : ∃ (stopped later : TimerCan) (ti ti' : TimerInfo),
    stopped 11 = some ti ∧ later 11 = some ti' ∧ ti.calls = 1 ∧ ti'.calls = 2 ∧
    ti'.starts = ti.starts ∧ ti'.pending = 0 := by
  let acts : List Action := [.updateTimerInfo 11 10 0 true, .expire 11, .handlerBegins 11,
    .updateTimerInfo 11 10 0 true, .expire 11, .stopTimer 11]
  let acts' : List Action := [.handlerTests 11 true, .handlerBegins 11, .handlerTests 11 true]
  have hrun : (exec step start acts).bind (fun s => (step s (.setCanceled 11)).bind fun t =>
      (exec (guarded step (LeavesAlone 11)) t acts').bind fun u =>
        (t 11).bind fun ti => (u 11).map fun ti' => (ti, ti')) =
      some (⟨.canceled, 10, 0, 0, 1, 0, 0, 1, 0, 2, 1⟩,
        ⟨.canceled, 10, 0, 0, 0, 0, 0, 0, 0, 2, 2⟩) := by
    decide +kernel
  obtain ⟨s, hs, hrun⟩ := Option.bind_eq_some_iff.mp hrun
  obtain ⟨t, ht, hrun⟩ := Option.bind_eq_some_iff.mp hrun
  obtain ⟨u, hu, hrun⟩ := Option.bind_eq_some_iff.mp hrun
  obtain ⟨ti, hti, hrun⟩ := Option.bind_eq_some_iff.mp hrun
  obtain ⟨ti', hti', hseen⟩ := Option.map_eq_some_iff.mp hrun
  obtain ⟨rfl, rfl⟩ := Prod.mk.inj hseen
  have hall := (timer_stops s t u 11 _ _ ht hti (Reach.of_exec_guarded acts' hu) hti').2.2 rfl rfl
  exact ⟨t, u, _, _, hti, hti', rfl, rfl, hall.2.1, hall.1⟩

/-- A handler that has found `TIMER_OK` starts the timer although it has been
stopped since. -/
example : (exec step start [.updateTimerInfo 2 50 0 true, .expire 2, .handlerBegins 2,
    .handlerTests 2 true, .stopTimer 2, .setCanceled 2, .handlerRestarts 2]).bind
      (fun s => (s 2).map fun ti => (ti.status, ti.pending)) = some (.canceled, 1) := by
  decide

end TimerCan

end AsioTcp.Wrapper
