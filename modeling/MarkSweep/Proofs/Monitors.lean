import MarkSweep.Heap.Store
import Mathlib.Data.List.Basic

namespace MarkSweep

namespace Monitor

/-- What a thread asks of a monitor. -/
inductive Act
  | enter
  | exit
deriving DecidableEq

def perform (monitor : Monitor) (thread : ThreadId) : Act → Except Fault Bool × Monitor
  | .enter => monitor.enter thread
  | .exit => monitor.exit thread

/-- What a thread has asked of a monitor, and the answer. -/
structure Deed where
  thread : ThreadId
  act : Act
  answer : Except Fault Bool

/-- Whether a deed is a success of this thread with this act. -/
def Deed.isSuccess (thread : ThreadId) (act : Act) (deed : Deed) : Bool :=
  deed.thread = thread && deed.act = act &&
    match deed.answer with
    | .ok true => true
    | _ => false

/-- How often a thread has succeeded with an act. -/
def successes (deeds : List Deed) (thread : ThreadId) (act : Act) : Nat :=
  deeds.countP (·.isSuccess thread act)

/-- A new monitor after these calls on it, the latest of them first, and what came of each. -/
def run : List (ThreadId × Act) → Monitor × List Deed
  | [] => ({}, [])
  | (thread, act) :: earlier =>
    let (monitor, deeds) := run earlier
    let (answer, monitor) := monitor.perform thread act
    (monitor, ⟨thread, act, answer⟩ :: deeds)

/-- What came of a call. -/
inductive Performs (monitor : Monitor) (thread : ThreadId) :
    Act → Except Fault Bool → Monitor → Prop
  | entered (hfree : monitor.owner = none ∨ monitor.owner = some thread)
      (hroom : monitor.recursion + 1 < recursionLimit) :
      Performs monitor thread .enter (.ok true) ⟨some thread, monitor.recursion + 1⟩
  | full (howner : monitor.owner = some thread) (hfull : monitor.recursion + 1 = recursionLimit) :
      Performs monitor thread .enter (.error .addOverflow) monitor
  | barred (hother : monitor.owner ≠ none) (howner : monitor.owner ≠ some thread) :
      Performs monitor thread .enter (.ok false) monitor
  | left (howner : monitor.owner = some thread) (hinside : monitor.recursion ≠ 0) :
      Performs monitor thread .exit (.ok true)
        ⟨if monitor.recursion = 1 then none else some thread, monitor.recursion - 1⟩
  | foreign (howner : monitor.owner ≠ some thread) :
      Performs monitor thread .exit (.ok false) monitor

/-- The count is zero while nobody is inside, and fits its 32 bits. -/
structure Sound (monitor : Monitor) : Prop where
  free_iff : monitor.owner = none ↔ monitor.recursion = 0
  bounded : monitor.recursion < recursionLimit

variable {monitor : Monitor} {thread : ThreadId} {act : Act} {answer : Except Fault Bool}
  {after : Monitor} {deeds : List Deed}

/-- A full count is that of an owner, who has been recorded before, so that an overflow changes
nothing. -/
theorem Sound.countEntry_full (hsound : Sound monitor)
    (hfree : monitor.owner = none ∨ monitor.owner = some thread)
    (hfull : ¬monitor.recursion + 1 < recursionLimit) :
    monitor.owner = some thread ∧ monitor.recursion + 1 = recursionLimit := by
  have hbounded := hsound.bounded
  refine ⟨hfree.resolve_left fun howner => ?_, by omega⟩
  have hzero := hsound.free_iff.1 howner
  rw [hzero] at hfull
  exact hfull (by decide)

/-- Entering a sound monitor goes as the rules have it. -/
theorem Sound.performs_enter (hsound : Sound monitor) (thread : ThreadId) :
    Performs monitor thread .enter (monitor.enter thread).1 (monitor.enter thread).2 := by
  have hcount : monitor.owner = none ∨ monitor.owner = some thread →
      Performs monitor thread .enter (monitor.countEntry thread).1
        (monitor.countEntry thread).2 := by
    intro hfree
    by_cases hroom : monitor.recursion + 1 < recursionLimit
    · rw [countEntry, if_pos hroom]
      exact .entered hfree hroom
    · obtain ⟨howner, hfull⟩ := hsound.countEntry_full hfree hroom
      have hsame : { monitor with owner := some thread } = monitor := by rw [← howner]
      rw [countEntry, if_neg hroom, hsame]
      exact .full howner hfull
  unfold enter
  split
  case h_1 owner howner =>
    split
    case isTrue hsame => exact hcount (.inr (hsame ▸ howner))
    case isFalse hother =>
      refine .barred (by simp [howner]) ?_
      rw [howner]
      exact fun heq => hother (Option.some.inj heq)
  case h_2 howner => exact hcount (.inl howner)

theorem Sound.performs_exit (hsound : Sound monitor) (thread : ThreadId) :
    Performs monitor thread .exit (monitor.exit thread).1 (monitor.exit thread).2 := by
  unfold exit
  split
  case isTrue howner =>
    have hinside : monitor.recursion ≠ 0 := by
      rw [Ne, ← hsound.free_iff, howner]
      exact nofun
    have hleft := Performs.left howner hinside
    split
    case h_1 hzero => exact absurd hzero hinside
    case h_2 hone => simpa [hone] using hleft
    case h_3 n hmore => simpa [hmore, howner] using hleft
  case isFalse hother => exact .foreign hother

/-- Whatever a thread asks of a sound monitor goes as the rules have it. -/
theorem Sound.performs (hsound : Sound monitor) (thread : ThreadId) (act : Act) :
    Performs monitor thread act (monitor.perform thread act).1 (monitor.perform thread act).2 := by
  cases act with
  | enter => exact hsound.performs_enter thread
  | exit => exact hsound.performs_exit thread

/-- A monitor stays sound whatever is asked of it. -/
theorem Performs.sound (hperforms : Performs monitor thread act answer after)
    (hsound : Sound monitor) : Sound after := by
  have hbounded := hsound.bounded
  cases hperforms with
  | entered _ hroom => exact ⟨by simp, hroom⟩
  | full _ _ => exact hsound
  | barred _ _ => exact hsound
  | left howner hinside =>
    refine ⟨?_, by dsimp only; omega⟩
    dsimp only
    split <;> simp <;> omega
  | foreign _ => exact hsound

/-- How often a thread is inside. -/
def share (monitor : Monitor) (thread : ThreadId) : Nat :=
  if monitor.owner = some thread then monitor.recursion else 0

/-- A success of a thread moves its share by one, and nothing else moves any share. -/
theorem Performs.share_add (hperforms : Performs monitor thread act answer after)
    (hsound : Sound monitor) (other : ThreadId) :
    monitor.share other + (if Deed.isSuccess other .enter ⟨thread, act, answer⟩ then 1 else 0) =
      after.share other + if Deed.isSuccess other .exit ⟨thread, act, answer⟩ then 1 else 0 := by
  have hzero := hsound.free_iff
  simp only [Deed.isSuccess, share]
  by_cases hsame : thread = other
  · subst hsame
    cases hperforms with
    | entered hfree _ =>
      obtain howner | howner := hfree
      · simp [howner, hzero.1 howner]
      · simp [howner]
    | full _ _ => simp
    | barred _ _ => simp
    | left howner hinside =>
      by_cases hone : monitor.recursion = 1
      · simp [howner, hone]
      · simp [howner, hone]
        omega
    | foreign _ => simp
  · -- Of the other threads none is inside while this one succeeds.
    cases hperforms with
    | entered hfree _ => obtain howner | howner := hfree <;> simp [howner, hsame]
    | full _ _ => simp [hsame]
    | barred _ _ => simp [hsame]
    | left howner _ => by_cases hone : monitor.recursion = 1 <;> simp [howner, hone, hsame]
    | foreign _ => simp [hsame]

/-- Every thread is inside as often as it has entered and not left. -/
structure Tallies (monitor : Monitor) (deeds : List Deed) : Prop extends Sound monitor where
  balance : ∀ thread, successes deeds thread .enter =
    successes deeds thread .exit + monitor.share thread

/-- One more deed counts if it was of this kind and succeeded. -/
theorem successes_cons (deed : Deed) (deeds : List Deed) (thread : ThreadId) (act : Act) :
    successes (deed :: deeds) thread act =
      successes deeds thread act + if deed.isSuccess thread act then 1 else 0 :=
  List.countP_cons

/-- The count goes on to be what was entered and not left. -/
theorem Tallies.step (h : Tallies monitor deeds)
    (hperforms : Performs monitor thread act answer after) :
    Tallies after (⟨thread, act, answer⟩ :: deeds) := by
  refine ⟨hperforms.sound h.toSound, fun other => ?_⟩
  have hbefore := h.balance other
  have hshare := hperforms.share_add h.toSound other
  rw [successes_cons, successes_cons]
  omega

theorem tallies_run (calls : List (ThreadId × Act)) : Tallies (run calls).1 (run calls).2 := by
  induction calls with
  | nil => exact ⟨⟨iff_of_true rfl rfl, by decide⟩, fun thread => rfl⟩
  | cons call earlier ih =>
    obtain ⟨thread, act⟩ := call
    exact ih.step (ih.performs thread act)

/-- A call that does not succeed leaves the monitor as it was. -/
theorem Performs.unchanged (hperforms : Performs monitor thread act answer after)
    (hfails : answer ≠ .ok true) : after = monitor := by
  cases hperforms with
  | entered _ _ => exact absurd rfl hfails
  | full _ _ => rfl
  | barred _ _ => rfl
  | left _ _ => exact absurd rfl hfails
  | foreign _ => rfl

/-- A thread gets in exactly if nobody else is inside and the count has room. -/
theorem Performs.entered_iff (hperforms : Performs monitor thread .enter answer after)
    (hsound : Sound monitor) : answer = .ok true ↔
      monitor.owner = none ∨ monitor.owner = some thread ∧ monitor.recursion ≠ UInt32.size - 1 := by
  have hlimit : recursionLimit = UInt32.size := rfl
  have hbounded := hsound.bounded
  cases hperforms with
  | entered hfree hroom =>
    refine iff_of_true rfl (hfree.imp_right fun howner => ⟨howner, ?_⟩)
    omega
  | full howner hfull =>
    refine iff_of_false nofun ?_
    rintro (hnone | ⟨-, hroom⟩)
    · exact absurd (howner.symm.trans hnone) nofun
    · omega
  | barred hother howner =>
    refine iff_of_false nofun ?_
    rintro (hnone | ⟨hsome, -⟩)
    · exact hother hnone
    · exact howner hsome

/-- A thread is kept out exactly if somebody else is inside. -/
theorem Performs.barred_iff (hperforms : Performs monitor thread .enter answer after) :
    answer = .ok false ↔ ¬(monitor.owner = none ∨ monitor.owner = some thread) := by
  cases hperforms with
  | entered hfree _ => exact iff_of_false nofun (not_not_intro hfree)
  | full howner _ => exact iff_of_false nofun (not_not_intro (.inr howner))
  | barred hother howner => exact iff_of_true rfl (not_or.2 ⟨hother, howner⟩)

/-- Entering faults exactly if the owner has entered as often as can be counted. -/
theorem Performs.full_iff {fault : Fault}
    (hperforms : Performs monitor thread .enter answer after) : answer = .error fault ↔
      fault = .addOverflow ∧ monitor.owner = some thread ∧
        monitor.recursion = UInt32.size - 1 := by
  have hlimit : recursionLimit = UInt32.size := rfl
  cases hperforms with
  | entered hfree hroom =>
    refine iff_of_false nofun ?_
    rintro ⟨-, -, hfull⟩
    omega
  | full howner hfull =>
    have hcount : monitor.recursion = UInt32.size - 1 := by omega
    rw [Except.error.injEq, eq_comm, and_iff_left ⟨howner, hcount⟩]
  | barred hother howner => exact iff_of_false nofun fun hfault => howner hfault.2.1

/-- Leaving succeeds exactly for the owner. -/
theorem Performs.left_iff (hperforms : Performs monitor thread .exit answer after) :
    answer = .ok true ↔ monitor.owner = some thread := by
  cases hperforms with
  | left howner _ => exact iff_of_true rfl howner
  | foreign hother => exact iff_of_false nofun hother

/-- Leaving is refused exactly to those who are not inside. -/
theorem Performs.foreign_iff (hperforms : Performs monitor thread .exit answer after) :
    answer = .ok false ↔ monitor.owner ≠ some thread := by
  cases hperforms with
  | left howner _ => exact iff_of_false nofun (not_not_intro howner)
  | foreign hother => exact iff_of_true rfl hother

/-- Leaving never faults. -/
theorem Performs.exit_ne_error {fault : Fault}
    (hperforms : Performs monitor thread .exit answer after) : answer ≠ .error fault := by
  cases hperforms <;> exact nofun

/-- Nobody but the owner has entered more often than left. -/
theorem Tallies.owner_eq (h : Tallies monitor deeds)
    (hlt : successes deeds thread .exit < successes deeds thread .enter) :
    monitor.owner = some thread := by
  by_contra hother
  have hbalance := h.balance thread
  rw [share, if_neg hother] at hbalance
  omega

/-- A re-entrant lock on which these calls were made: who is inside and how often, and what the next
call comes to. -/
structure Reenters (monitor : Monitor) (deeds : List Deed) : Prop where
  free_iff : monitor.owner = none ↔ monitor.recursion = 0
  balance : ∀ thread, monitor.owner = some thread →
    successes deeds thread .enter = successes deeds thread .exit + monitor.recursion
  exits_le : ∀ thread, successes deeds thread .exit ≤ successes deeds thread .enter
  alone : ∀ thread other, successes deeds thread .exit < successes deeds thread .enter →
    successes deeds other .exit < successes deeds other .enter → thread = other
  enter_succeeds : ∀ thread, (monitor.enter thread).1 = .ok true ↔
    monitor.owner = none ∨ monitor.owner = some thread ∧ monitor.recursion ≠ UInt32.size - 1
  enter_fails : ∀ thread, (monitor.enter thread).1 = .ok false ↔
    ¬(monitor.owner = none ∨ monitor.owner = some thread)
  /-- Only an owner whose count is full meets a fault. -/
  enter_faults : ∀ thread fault, (monitor.enter thread).1 = .error fault ↔
    fault = .addOverflow ∧ monitor.owner = some thread ∧ monitor.recursion = UInt32.size - 1
  exit_succeeds : ∀ thread, (monitor.exit thread).1 = .ok true ↔ monitor.owner = some thread
  exit_fails : ∀ thread, (monitor.exit thread).1 = .ok false ↔ monitor.owner ≠ some thread
  /-- The count never goes below zero. -/
  exit_never_faults : ∀ thread fault, (monitor.exit thread).1 ≠ .error fault
  /-- A call that does not succeed changes nothing. -/
  unchanged : ∀ thread act, (monitor.perform thread act).1 ≠ .ok true →
    (monitor.perform thread act).2 = monitor

/-- A monitor whose count is right is a re-entrant lock. -/
theorem Tallies.reenters (h : Tallies monitor deeds) : Reenters monitor deeds where
  free_iff := h.free_iff
  balance := by
    intro thread howner
    have hbalance := h.balance thread
    rwa [share, if_pos howner] at hbalance
  exits_le := by
    intro thread
    rw [h.balance]
    omega
  alone := by
    intro thread other hthread hother
    exact Option.some.inj ((h.owner_eq hthread).symm.trans (h.owner_eq hother))
  enter_succeeds := fun thread => (h.performs_enter thread).entered_iff h.toSound
  enter_fails := fun thread => (h.performs_enter thread).barred_iff
  enter_faults := fun thread _ => (h.performs_enter thread).full_iff
  exit_succeeds := fun thread => (h.performs_exit thread).left_iff
  exit_fails := fun thread => (h.performs_exit thread).foreign_iff
  exit_never_faults := fun thread _ => (h.performs_exit thread).exit_ne_error
  unchanged := fun thread act => (h.performs thread act).unchanged

end Monitor

namespace Heap

open Monitor (Act Deed)

/-- A call of a thread on a monitor of a heap. -/
structure MonitorCall where
  offset : Offset
  thread : ThreadId
  act : Act

/-- What came of a call; nothing where there is no monitor. -/
def MonitorCall.deed? (call : MonitorCall) : Except Fault (Option Bool) → Option Deed
  | .ok none => none
  | .ok (some succeeded) => some ⟨call.thread, call.act, .ok succeeded⟩
  | .error fault => some ⟨call.thread, call.act, .error fault⟩

/-- A heap after these calls on its monitors, the latest of them first, and what came of each. -/
def attend (heap : Heap) : List MonitorCall → Heap × List (Offset × Deed)
  | [] => (heap, [])
  | call :: earlier =>
    let before := heap.attend earlier
    let ended := before.1.withMonitor call.offset (·.perform call.thread call.act)
    (ended.2, (call.deed? ended.1).toList.map (call.offset, ·) ++ before.2)

/-- The calls on the monitor of one offset. -/
def callsAt (offset : Offset) (calls : List MonitorCall) : List (ThreadId × Act) :=
  (calls.filter (·.offset = offset)).map fun call => (call.thread, call.act)

def deedsAt (offset : Offset) (deeds : List (Offset × Deed)) : List Deed :=
  (deeds.filter (·.1 = offset)).map (·.2)

variable {heap : Heap} {offset other : Offset} {monitor : Monitor}

/-- A call on a monitor of the heap is the call on that monitor, which is stored again. -/
theorem withMonitor_of_some {α : Type} (hget : heap.monitors[offset]? = some monitor)
    (f : Monitor → Except Fault α × Monitor) :
    heap.withMonitor offset f =
      ((f monitor).1.map some, heap.putMonitor offset (f monitor).2) := by
  simp only [withMonitor, hget]

/-- It leaves the other monitors alone. -/
theorem monitors_withMonitor_of_ne {α : Type} (hne : other ≠ offset)
    (f : Monitor → Except Fault α × Monitor) :
    (heap.withMonitor other f).2.monitors[offset]? = heap.monitors[offset]? := by
  unfold withMonitor
  split
  · simp [putMonitor, Std.ExtTreeMap.getElem?_insert, hne]
  · rfl

/-- Where there is no monitor it does nothing. -/
theorem withMonitor_of_none {α : Type} (hget : heap.monitors[offset]? = none)
    (f : Monitor → Except Fault α × Monitor) : heap.withMonitor offset f = (.ok none, heap) := by
  simp only [withMonitor, hget]

/-- The monitors of a heap do not get in each other's way: each is as the calls on it have left it,
and they come to what they come to without the others. -/
theorem attend_at (hnew : heap.monitors[offset]? = some {}) (calls : List MonitorCall) :
    (heap.attend calls).1.monitors[offset]? = some (Monitor.run (callsAt offset calls)).1 ∧
      deedsAt offset (heap.attend calls).2 = (Monitor.run (callsAt offset calls)).2 := by
  induction calls with
  | nil => exact ⟨hnew, rfl⟩
  | cons call earlier ih =>
    obtain ⟨hmonitor, hdeeds⟩ := ih
    by_cases hat : call.offset = offset
    · subst hat
      have hcalls : callsAt call.offset (call :: earlier) =
          (call.thread, call.act) :: callsAt call.offset earlier := by
        simp [callsAt]
      rw [hcalls, attend, withMonitor_of_some hmonitor]
      refine ⟨Std.ExtTreeMap.getElem?_insert_self, ?_⟩
      have hdeed : ∀ answer : Except Fault Bool,
          call.deed? (answer.map some) = some ⟨call.thread, call.act, answer⟩ := by
        rintro (fault | succeeded) <;> rfl
      simp only [hdeed, Monitor.run, ← hdeeds]
      simp [deedsAt]
    · have hcalls : callsAt offset (call :: earlier) = callsAt offset earlier := by
        simp [callsAt, hat]
      rw [hcalls, attend]
      refine ⟨(monitors_withMonitor_of_ne hat _).trans hmonitor, ?_⟩
      rw [← hdeeds]
      simp [deedsAt, hat]

/-- A heap in which nothing but the monitors at some offsets is different. -/
structure SameButMonitors (before after : Heap) : Prop where
  objects : after.objects = before.objects
  arrays : after.arrays = before.arrays
  nextOffset : after.nextOffset = before.nextOffset
  contains : ∀ offset, after.monitors.contains offset = before.monitors.contains offset

theorem SameButMonitors.putMonitor {before after : Heap} (h : SameButMonitors before after)
    (hget : after.monitors[offset]? = some monitor) (monitor' : Monitor) :
    SameButMonitors before (after.putMonitor offset monitor') := by
  refine ⟨h.objects, h.arrays, h.nextOffset, fun other => ?_⟩
  rw [← h.contains]
  by_cases heq : offset = other
  · subst heq
    simp [Heap.putMonitor, Std.ExtTreeMap.contains_eq_isSome_getElem?, hget]
  · simp [Heap.putMonitor, Std.ExtTreeMap.contains_insert, heq]

/-- Calls on monitors touch nothing but monitors that are there. -/
theorem attend_same (heap : Heap) (calls : List MonitorCall) :
    SameButMonitors heap (heap.attend calls).1 ∧
      (heap.attend calls).2.all (heap.monitors.contains ·.1) = true := by
  induction calls with
  | nil => exact ⟨⟨rfl, rfl, rfl, fun _ => rfl⟩, rfl⟩
  | cons call earlier ih =>
    obtain ⟨hsame, hdeeds⟩ := ih
    rw [attend]
    cases hget : (heap.attend earlier).1.monitors[call.offset]? with
    | none =>
      rw [withMonitor_of_none hget]
      exact ⟨hsame, hdeeds⟩
    | some monitor =>
      rw [withMonitor_of_some hget]
      refine ⟨hsame.putMonitor hget _, ?_⟩
      have hcontains : heap.monitors.contains call.offset = true := by
        rw [← hsame.contains, Std.ExtTreeMap.contains_eq_isSome_getElem?, hget]
        rfl
      rw [List.all_append, hdeeds, Bool.and_true, List.all_map]
      exact List.all_eq_true.2 fun _ _ => hcontains

end Heap

/-- A monitor on which any threads make any calls is a re-entrant lock. Every new monitor of a heap
is one, whatever calls are made on it and on the other monitors: they answer what they would answer
if it was alone, and leave in the heap what they would leave of it. Where there is no monitor
nothing comes of a call, and nothing else of the heap changes. -/
theorem Monitor.run_reenters :
    (∀ calls, Reenters (run calls).1 (run calls).2) ∧
    (∀ (heap : Heap) (offset : Offset) (calls : List Heap.MonitorCall),
      ((heap.putMonitor offset {}).attend calls).1.monitors[offset]? =
          some (run (Heap.callsAt offset calls)).1 ∧
        Heap.deedsAt offset ((heap.putMonitor offset {}).attend calls).2 =
          (run (Heap.callsAt offset calls)).2) ∧
    ∀ (heap : Heap) (calls : List Heap.MonitorCall),
      Heap.SameButMonitors heap (heap.attend calls).1 ∧
        (heap.attend calls).2.all (heap.monitors.contains ·.1) = true := by
  refine ⟨fun calls => (tallies_run calls).reenters, fun heap offset calls => ?_,
    Heap.attend_same⟩
  exact Heap.attend_at Std.ExtTreeMap.getElem?_insert_self calls

end MarkSweep
