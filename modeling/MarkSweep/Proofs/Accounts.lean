import MarkSweep.Lock.Table
import MarkSweep.Proofs.Locking
import Mathlib.Data.List.Basic
import Mathlib.Logic.Relation

namespace MarkSweep

namespace Held

variable {level : Level} {held : Held}

theorem rank_le_rank (hmem : level ∈ held) : level.rank ≤ rank held := by
  induction held with
  | nil => cases hmem
  | cons first rest ih =>
    rw [rank_cons]
    obtain rfl | hmem := List.mem_cons.1 hmem
    · exact Nat.le_max_left ..
    · exact Nat.le_trans (ih hmem) (Nat.le_max_right ..)

/-- The rank of what is held is that of the highest level among it, or 0 if there is none. -/
theorem rank_attained (held : Held) :
    held = [] ∧ rank held = 0 ∨ ∃ level ∈ held, level.rank = rank held := by
  induction held with
  | nil => exact .inl ⟨rfl, rfl⟩
  | cons first rest ih =>
    refine .inr ?_
    rw [rank_cons]
    obtain ⟨rfl, hzero⟩ | ⟨level, hmem, hrank⟩ := ih
    · exact ⟨first, List.mem_cons_self .., by omega⟩
    · rcases Nat.le_total first.rank (rank rest) with hle | hle
      · exact ⟨level, List.mem_cons_of_mem _ hmem, by omega⟩
      · exact ⟨first, List.mem_cons_self .., by omega⟩

end Held

namespace LockTable

variable {t : Thread} {table : LockTable} {level : Level} {place : Nat} {lock : SpinLock}

/-- Runs a call of a thread that nobody comes between. -/
abbrev alone {α : Type} (call : Call LockTable α) (t : Thread) (table : LockTable) :
    Option (Except Fault α × Thread × LockTable) :=
  Routine.run id call (t, table)

theorem alone_bind {α β : Type} (call : Call LockTable β) (f : β → Call LockTable α) :
    alone (call >>= f) t table = (alone call t table).bind fun (result, t, table) =>
      match result with
      | .ok b => alone (f b) t table
      | .error fault => some (.error fault, t, table) := by
  refine (Routine.run_bind id call _ (t, table)).trans ?_
  refine congrArg (Option.bind _) (funext fun x => ?_)
  obtain ⟨result, t, table⟩ := x
  cases result <;> rfl

theorem alone_enterLevel (level : Level) : alone (enterLevel level) t table =
    match t.enter level with
    | .ok entered => some (.ok (), entered, table)
    | .error fault => some (.error fault, t, table) := by
  have hstep : alone (enterLevel level) t table =
      let (result, t) := match t.enter level with
        | .ok t => ((.ok () : Except Fault Unit), t)
        | .error fault => (.error fault, t)
      some (result, t, table) := rfl
  rw [hstep]
  cases t.enter level <;> rfl

/-- A call that begins by entering a level that it may not enter ends in that fault. -/
theorem alone_refused {α : Type} (hrank : level.rank < t.held.rank) (f : Unit → Call LockTable α) :
    alone (enterLevel level >>= f) t table =
      some (.error (.lockOrder level t.held.rank), t, table) := by
  rw [alone_bind, alone_enterLevel, Thread.enter_of_lt_rank hrank]
  rfl

theorem alone_entered {α : Type} (hrank : t.held.rank ≤ level.rank) (f : Unit → Call LockTable α) :
    alone (enterLevel level >>= f) t table =
      alone (f ()) { t with held := level :: t.held } table := by
  rw [alone_bind, alone_enterLevel, Thread.enter_of_rank_le hrank]
  rfl

theorem alone_atomic {α : Type} (f : LockTable → α × LockTable) :
    alone (.atomic f) t table = some (.ok (f table).1, t, (f table).2) := rfl

theorem alone_await {α : Type} {f : LockTable → Option (α × LockTable)} {a : α}
    {table' : LockTable} (hoffer : f table = some (a, table')) :
    alone (.await f) t table = some (.ok a, t, table') := by
  change (Routine.run id (Routine.step (fun _ (x : Thread × LockTable) =>
    (f x.2).map fun (a, table) => (a, x.1, table)) fun a => Routine.done (Except.ok a)) (t, table) :
      Option (Except Fault α × Thread × LockTable)) = _
  rw [Routine.run]
  simp only [hoffer, Option.map_some]
  rfl

theorem alone_leaveLevel : alone (leaveLevel level) t table = some (.ok (), t.leave level, table) :=
  rfl

theorem alone_release (hget : table.guards[place]? = some level) :
    alone (release place) t table = some (.ok true, t.leave level,
      { table with guards := table.guards.eraseIdxIfInBounds place }) := by
  rw [release, alone_bind, alone_atomic]
  simp only [Option.bind_some, hget]
  rfl

theorem alone_onSpin {α : Type} (hget : table.spin? place = some lock)
    (f : SpinLock → α × SpinLock) :
    alone (onSpin place f) t table = some (.ok (some (f lock).1), t,
      { table with spins := table.spins.setIfInBounds place (f lock).2 }) := by
  have hget : table.spins[place]? = some lock := hget
  rw [onSpin, alone_atomic]
  simp only [hget]

/-- A free spin lock is acquired. -/
theorem alone_lockSpin (hget : table.spin? place = some lock) (hfree : lock.locked = false)
    (hrank : t.held.rank ≤ lock.level.rank) :
    alone (lockSpin place lock) t table = some (.ok lock.value,
      { t with held := lock.level :: t.held },
      { table with spins := table.spins.setIfInBounds place { lock with locked := true } }) := by
  have hget : table.spins[place]? = some lock := hget
  rw [lockSpin, alone_entered hrank, alone_await]
  simp only [hget, SpinLock.acquire, hfree, Bool.not_false]

/-- An attempt on a spin lock leaves the level with its thread only if the lock was free. -/
theorem alone_tryLockSpin (hget : table.spin? place = some lock)
    (hrank : t.held.rank ≤ lock.level.rank) :
    alone (tryLockSpin place lock) t table = some (.ok (!lock.locked),
      if lock.locked then t else { t with held := lock.level :: t.held },
      { table with spins := table.spins.setIfInBounds place { lock with locked := true } }) := by
  rw [tryLockSpin, alone_entered hrank, alone_bind, alone_onSpin hget]
  cases hlocked : lock.locked with
  | false =>
    simp only [Option.bind_some, SpinLock.acquire, hlocked, Bool.not_false]
    rfl
  | true =>
    simp only [Option.bind_some, SpinLock.acquire, hlocked, Bool.not_true]
    rw [alone_bind, alone_leaveLevel, Thread.leave_cons]
    rfl

theorem alone_unlockSpin (hget : table.spin? place = some lock) :
    alone (unlockSpin place lock) t table = some (.ok (), t.leave lock.level,
      { table with spins := table.spins.setIfInBounds place { lock with locked := false } }) := by
  rw [unlockSpin, alone_bind, alone_onSpin hget]
  rfl

theorem alone_addSpin {amount : Nat} (hget : table.spin? place = some lock) :
    alone (addSpin place amount) t table = some ((lock.add amount).1, t,
      { table with spins := table.spins.setIfInBounds place (lock.add amount).2 }) := by
  rw [addSpin, alone_bind, alone_onSpin hget]
  rcases (lock.add amount).1 with fault | sum <;> rfl

end LockTable

/-- What a thread can ask of its locks. -/
inductive LockRequest
  /-- Enters a level and keeps the guard. -/
  | hold (level : Level)
  /-- Drops the guard at a place. -/
  | release (place : Nat)
  | makeSpin (level : Level) (value : Nat)
  | lock (place : Nat)
  | tryLock (place : Nat)
  /-- Adds to the counter of a spin lock through its guard. -/
  | add (place amount : Nat)
  /-- Drops the guard of a spin lock. -/
  | unlock (place : Nat)
deriving DecidableEq

/-- A thread and its locks. -/
structure Keeper where
  thread : Thread := {}
  table : LockTable := {}
  /-- The places of the spin locks of which it keeps the guard. -/
  kept : List Nat := []

namespace Keeper

open LockTable

/-- The levels of the live guards of both kinds. -/
def levels (keeper : Keeper) : List Level :=
  keeper.table.guards.toList ++
    keeper.kept.filterMap fun place => (keeper.table.spin? place).map (·.level)

/-- The level at which a request acquires a lock. -/
def acquires? (keeper : Keeper) : LockRequest → Option Level
  | .hold level => some level
  | .lock place | .tryLock place => (keeper.table.spin? place).map (·.level)
  | .release _ | .makeSpin _ _ | .add _ _ | .unlock _ => none

/-- The call that a request makes, where it can make one: only a live guard can be used or dropped,
and a thread does not wait for a spin lock that is taken, since nobody else would give it back. -/
def call? (keeper : Keeper) : LockRequest → Option (Call LockTable Bool)
  | .hold level => some do hold level; return true
  | .release place => if place < keeper.table.guards.size then some (release place) else none
  | .makeSpin level value => some do let _ ← newSpin ⟨level, false, value⟩; return true
  | .lock place => (keeper.table.spin? place).bind fun lock =>
    if lock.locked then none else some do let _ ← lockSpin place lock; return true
  | .tryLock place => (keeper.table.spin? place).map (tryLockSpin place)
  | .add place amount =>
    if place ∈ keeper.kept then some do let _ ← addSpin place amount; return true else none
  | .unlock place => (keeper.table.spin? place).bind fun lock =>
    if place ∈ keeper.kept then some do unlockSpin place lock; return true else none

/-- The guards of spin locks that are kept after a request with this result. -/
def keptAfter (kept : List Nat) : LockRequest → Except Fault Bool → List Nat
  | .lock place, .ok true | .tryLock place, .ok true => place :: kept
  | .unlock place, .ok _ => kept.erase place
  | _, _ => kept

/-- Lets the thread make a request, with the result. -/
def perform (request : LockRequest) (keeper : Keeper) : Option (Except Fault Bool × Keeper) :=
  (keeper.call? request).bind fun call =>
    (Routine.run id call (keeper.thread, keeper.table)).map fun (result, thread, table) =>
      (result, ⟨thread, table, keptAfter keeper.kept request result⟩)

/-- What comes of a request. -/
inductive Effect (keeper : Keeper) : LockRequest → Except Fault Bool → Keeper → Prop
  /-- The level is below one that is held. -/
  | refused {request : LockRequest} {level : Level}
      (hacquires : keeper.acquires? request = some level)
      (hrank : level.rank < keeper.thread.held.rank) :
      Effect keeper request (.error (.lockOrder level keeper.thread.held.rank)) keeper
  | held {level : Level} (hrank : keeper.thread.held.rank ≤ level.rank) :
      Effect keeper (.hold level) (.ok true) { keeper with
        thread := { keeper.thread with held := level :: keeper.thread.held }
        table := { keeper.table with guards := keeper.table.guards.push level } }
  | released {place : Nat} {level : Level} (hget : keeper.table.guards[place]? = some level) :
      Effect keeper (.release place) (.ok true) { keeper with
        thread := keeper.thread.leave level
        table :=
          { keeper.table with guards := keeper.table.guards.eraseIdxIfInBounds place } }
  | made {level : Level} {value : Nat} :
      Effect keeper (.makeSpin level value) (.ok true) { keeper with
        table := { keeper.table with spins := keeper.table.spins.push ⟨level, false, value⟩ } }
  /-- A free spin lock is acquired. -/
  | acquired {request : LockRequest} {place : Nat} {lock : SpinLock}
      (hrequest : request = .lock place ∨ request = .tryLock place)
      (hget : keeper.table.spin? place = some lock) (hfree : lock.locked = false)
      (hrank : keeper.thread.held.rank ≤ lock.level.rank) :
      Effect keeper request (.ok true) {
        thread := { keeper.thread with held := lock.level :: keeper.thread.held }
        table := { keeper.table with
          spins := keeper.table.spins.setIfInBounds place { lock with locked := true } }
        kept := place :: keeper.kept }
  /-- A spin lock that is tried is taken. -/
  | contended {place : Nat} {lock : SpinLock} (hget : keeper.table.spin? place = some lock)
      (hlocked : lock.locked = true) (hrank : keeper.thread.held.rank ≤ lock.level.rank) :
      Effect keeper (.tryLock place) (.ok false) keeper
  | added {place amount : Nat} {lock : SpinLock} (hget : keeper.table.spin? place = some lock) :
      Effect keeper (.add place amount) ((lock.add amount).1.map fun _ => true) { keeper with
        table := { keeper.table with
          spins := keeper.table.spins.setIfInBounds place (lock.add amount).2 } }
  | unlocked {place : Nat} {lock : SpinLock} (hget : keeper.table.spin? place = some lock)
      (hkept : place ∈ keeper.kept) :
      Effect keeper (.unlock place) (.ok true) {
        thread := keeper.thread.leave lock.level
        table := { keeper.table with
          spins := keeper.table.spins.setIfInBounds place { lock with locked := false } }
        kept := keeper.kept.erase place }

/-- The account of a thread balances: it holds the levels of its live guards, and the spin locks
that are locked are those of which it keeps the guard. -/
structure Balanced (keeper : Keeper) : Prop where
  held : keeper.thread.held.Perm keeper.levels
  locked : ∀ place lock, keeper.table.spin? place = some lock →
    (lock.locked = true ↔ place ∈ keeper.kept)
  live : ∀ place ∈ keeper.kept, ∃ lock, keeper.table.spin? place = some lock
  nodup : keeper.kept.Nodup

variable {keeper : Keeper} {request : LockRequest} {call : Call LockTable Bool}

theorem setIfInBounds_self {spins : Array SpinLock} {place : Nat} {lock : SpinLock}
    (hget : spins[place]? = some lock) : spins.setIfInBounds place lock = spins := by
  refine Array.ext_getElem? fun i => ?_
  grind

/-- A request does what its call does when nobody comes between. -/
theorem perform_of_alone (hcall : keeper.call? request = some call) {result : Except Fault Bool}
    {thread : Thread} {table : LockTable}
    (halone : alone call keeper.thread keeper.table = some (result, thread, table)) :
    keeper.perform request =
      some (result, ⟨thread, table, keptAfter keeper.kept request result⟩) := by
  rw [perform, hcall]
  exact congrArg (Option.map _) halone

section Spins

variable {place : Nat} {lock : SpinLock} (hget : keeper.table.spin? place = some lock)

include hget

/-- The level of a spin lock may be too low for the thread to acquire it. -/
theorem effect_refused (hrank : lock.level.rank < keeper.thread.held.rank)
    (hrequest : request = .lock place ∨ request = .tryLock place) :
    keeper.Effect request (.error (.lockOrder lock.level keeper.thread.held.rank)) keeper := by
  refine .refused ?_ hrank
  obtain rfl | rfl := hrequest <;> rw [acquires?, hget, Option.map_some]

/-- A request for a free spin lock comes to its end. -/
theorem perform_lock (hfree : lock.locked = false) :
    ∃ result keeper', keeper.perform (.lock place) = some (result, keeper') ∧
      keeper.Effect (.lock place) result keeper' := by
  have hcall : keeper.call? (.lock place) =
      some do let _ ← lockSpin place lock; return true := by
    simp only [call?, hget, Option.bind_some, hfree, Bool.false_eq_true, if_false]
  rcases Nat.lt_or_ge lock.level.rank keeper.thread.held.rank with hrank | hrank
  · refine ⟨_, _, perform_of_alone hcall ?_, effect_refused hget hrank (.inl rfl)⟩
    rw [lockSpin, bind_assoc, alone_refused hrank]
  · refine ⟨_, _, perform_of_alone hcall ?_, .acquired (.inl rfl) hget hfree hrank⟩
    rw [alone_bind, alone_lockSpin hget hfree hrank]
    rfl

theorem perform_tryLock :
    ∃ result keeper', keeper.perform (.tryLock place) = some (result, keeper') ∧
      keeper.Effect (.tryLock place) result keeper' := by
  have hcall : keeper.call? (.tryLock place) = some (tryLockSpin place lock) := by
    rw [call?, hget, Option.map_some]
  rcases Nat.lt_or_ge lock.level.rank keeper.thread.held.rank with hrank | hrank
  · refine ⟨_, _, perform_of_alone hcall ?_, effect_refused hget hrank (.inr rfl)⟩
    rw [tryLockSpin, alone_refused hrank]
  · have halone := alone_tryLockSpin hget hrank
    cases hlocked : lock.locked with
    | false =>
      rw [hlocked] at halone
      exact ⟨_, _, perform_of_alone hcall halone, .acquired (.inr rfl) hget hlocked hrank⟩
    | true =>
      have hsame : { lock with locked := true } = lock := by rw [← hlocked]
      rw [hlocked, hsame, setIfInBounds_self hget] at halone
      exact ⟨_, _, perform_of_alone hcall halone, .contended hget hlocked hrank⟩

end Spins

theorem perform_hold (level : Level) :
    ∃ result keeper', keeper.perform (.hold level) = some (result, keeper') ∧
      keeper.Effect (.hold level) result keeper' := by
  rcases Nat.lt_or_ge level.rank keeper.thread.held.rank with hrank | hrank
  · refine ⟨_, _, perform_of_alone rfl ?_, .refused rfl hrank⟩
    rw [hold, bind_assoc, alone_refused hrank]
  · refine ⟨_, _, perform_of_alone rfl ?_, .held hrank⟩
    rw [hold, bind_assoc, alone_entered hrank]
    rfl

/-- Every request that can be made comes to its end. -/
theorem perform_effect (h : keeper.Balanced) (hcall : keeper.call? request = some call) :
    ∃ result keeper', keeper.perform request = some (result, keeper') ∧
      keeper.Effect request result keeper' := by
  have hmade := hcall
  cases request with
  | hold level => exact perform_hold level
  | release place =>
    simp only [call?] at hmade
    split at hmade
    · next hlt =>
      cases hmade
      have hget := Array.getElem?_eq_getElem hlt
      exact ⟨_, _, perform_of_alone hcall (alone_release hget), .released hget⟩
    · cases hmade
  | makeSpin level value => exact ⟨_, _, perform_of_alone rfl rfl, .made⟩
  | lock place =>
    obtain ⟨lock, hget, hmade⟩ := Option.bind_eq_some_iff.1 hmade
    split at hmade
    · cases hmade
    · next hfree => exact perform_lock hget (Bool.eq_false_iff.2 hfree)
  | tryLock place =>
    obtain ⟨lock, hget, -⟩ := Option.map_eq_some_iff.1 hmade
    exact perform_tryLock hget
  | add place amount =>
    simp only [call?] at hmade
    split at hmade
    · next hkept =>
      cases hmade
      obtain ⟨lock, hget⟩ := h.live place hkept
      refine ⟨_, _, perform_of_alone hcall ?_, .added hget⟩
      rw [alone_bind, alone_addSpin hget]
      rcases (lock.add amount).1 with fault | sum <;> rfl
    · cases hmade
  | unlock place =>
    obtain ⟨lock, hget, hmade⟩ := Option.bind_eq_some_iff.1 hmade
    split at hmade
    · next hkept =>
      cases hmade
      refine ⟨_, _, perform_of_alone hcall ?_, .unlocked hget hkept⟩
      rw [alone_bind, alone_unlockSpin hget]
      rfl
    · cases hmade

namespace Balanced

/-- A thread that holds nothing and has no guard is balanced. -/
theorem of_held_nil {thread : Thread} (hheld : thread.held = []) :
    Balanced ⟨thread, {}, []⟩ := by
  refine ⟨?_, ?_, nofun, .nil⟩
  · rw [hheld]
    exact .nil
  · intro place lock hget
    simp [spin?] at hget

/-- One more spin lock leaves the others in their places. -/
theorem spin?_push {table : LockTable} {made lock : SpinLock} {place : Nat}
    (hget : table.spin? place = some lock) :
    spin? { table with spins := table.spins.push made } place = some lock := by
  have hlt := (Array.getElem?_eq_some_iff.1 hget).1
  rw [spin?, Array.getElem?_push, if_neg (by omega)]
  exact hget

/-- The levels of the spin locks in the table do not change with their flags and counters. -/
theorem map_level_setIfInBounds {table : LockTable} {lock lock' : SpinLock} {place : Nat}
    (hget : table.spin? place = some lock) (hlevel : lock'.level = lock.level) (i : Nat) :
    (spin? { table with spins := table.spins.setIfInBounds place lock' } i).map (·.level) =
      (table.spin? i).map (·.level) := by
  have hlt := (Array.getElem?_eq_some_iff.1 hget).1
  rw [spin?, Array.getElem?_setIfInBounds]
  split
  · next heq =>
    subst heq
    rw [hget, Option.map_some, Option.map_some, hlevel]
  · rfl

/-- What the live guards stand for does not change with a flag or a counter. -/
theorem levels_setIfInBounds {table : LockTable} {lock : SpinLock} {place : Nat}
    (hget : table.spin? place = some lock) (lock' : SpinLock) (hlevel : lock'.level = lock.level)
    (thread thread' : Thread) (kept : List Nat) :
    levels ⟨thread, { table with spins := table.spins.setIfInBounds place lock' }, kept⟩ =
      levels ⟨thread', table, kept⟩ :=
  congrArg (_ ++ ·) (List.filterMap_congr fun i _ => map_level_setIfInBounds hget hlevel i)

/-- Only the flag of the spin lock at one place has changed. -/
theorem spin?_setIfInBounds_cases {table : LockTable} {lock' other : SpinLock} {place i : Nat}
    (hget : spin? { table with spins := table.spins.setIfInBounds place lock' } i = some other) :
    i = place ∧ other = lock' ∨ i ≠ place ∧ table.spin? i = some other := by
  rw [spin?, Array.getElem?_setIfInBounds] at hget
  split at hget
  · next heq =>
    split at hget
    · exact .inl ⟨heq.symm, (Option.some.inj hget).symm⟩
    · cases hget
  · next hne => exact .inr ⟨fun heq => hne heq.symm, hget⟩

/-- A spin lock is where it was after one at some place has changed. -/
theorem exists_spin?_setIfInBounds {table : LockTable} {lock lock' : SpinLock} {place : Nat}
    (i : Nat) (hget : table.spin? i = some lock) :
    ∃ lock, spin? { table with spins := table.spins.setIfInBounds place lock' } i = some lock := by
  have hlt := (Array.getElem?_eq_some_iff.1 hget).1
  refine ⟨_, Array.getElem?_eq_getElem ?_⟩
  rwa [Array.size_setIfInBounds]

/-- A guard that is dropped takes its level with it. -/
theorem guards_perm {guards : Array Level} {place : Nat} {level : Level}
    (hget : guards[place]? = some level) :
    guards.toList.Perm (level :: (guards.eraseIdxIfInBounds place).toList) := by
  obtain ⟨hlt, rfl⟩ := Array.getElem?_eq_some_iff.1 hget
  rw [Array.toList_eraseIdxIfInBounds, List.eraseIdx_eq_take_drop_succ]
  refine List.Perm.trans (.of_eq ?_) List.perm_middle
  rw [← Array.getElem_toList, List.getElem_cons_drop, List.take_append_drop]

/-- A guard of a level is dropped. -/
theorem release (h : keeper.Balanced) {place : Nat} {level : Level}
    (hget : keeper.table.guards[place]? = some level) :
    Balanced ⟨keeper.thread.leave level,
      { keeper.table with guards := keeper.table.guards.eraseIdxIfInBounds place },
      keeper.kept⟩ := by
  refine ⟨?_, h.locked, h.live, h.nodup⟩
  have hlevels : keeper.levels.Perm (level :: levels
      ⟨keeper.thread.leave level, { keeper.table with
        guards := keeper.table.guards.eraseIdxIfInBounds place }, keeper.kept⟩) :=
    (guards_perm hget).append_right _
  have herased := (h.held.trans hlevels).erase level
  rwa [List.erase_cons_head] at herased

/-- A new spin lock is free, and nobody keeps a guard of it. -/
theorem push (h : keeper.Balanced) (level : Level) (value : Nat) :
    Balanced { keeper with
      table := { keeper.table with spins := keeper.table.spins.push ⟨level, false, value⟩ } } := by
  refine ⟨?held, ?locked, ?live, h.nodup⟩
  case held =>
    have hlevels : levels ⟨keeper.thread, { keeper.table with
        spins := keeper.table.spins.push ⟨level, false, value⟩ }, keeper.kept⟩ = keeper.levels := by
      refine congrArg (_ ++ ·) (List.filterMap_congr fun place hmem => ?_)
      obtain ⟨lock, hget⟩ := h.live place hmem
      rw [spin?_push hget, hget]
    exact hlevels ▸ h.held
  case locked =>
    intro place lock hget
    rw [spin?, Array.getElem?_push] at hget
    split at hget
    · next heq =>
      cases hget
      refine ⟨nofun, fun hmem => ?_⟩
      obtain ⟨lock, hlock⟩ := h.live place hmem
      have hlt := (Array.getElem?_eq_some_iff.1 hlock).1
      omega
    · exact h.locked place lock hget
  case live =>
    intro place hmem
    obtain ⟨lock, hget⟩ := h.live place hmem
    exact ⟨lock, spin?_push hget⟩

/-- The spin lock at one place changes, and the guards with it. -/
theorem setSpin (h : keeper.Balanced) {place : Nat} {lock : SpinLock}
    (hget : keeper.table.spin? place = some lock) (lock' : SpinLock)
    (hlevel : lock'.level = lock.level)
    {thread : Thread} {kept : List Nat}
    (hheld : thread.held.Perm (levels ⟨thread, keeper.table, kept⟩))
    (hplace : lock'.locked = true ↔ place ∈ kept)
    (hothers : ∀ i, i ≠ place → (i ∈ keeper.kept ↔ i ∈ kept)) (hnodup : kept.Nodup) :
    Balanced ⟨thread, { keeper.table with
      spins := keeper.table.spins.setIfInBounds place lock' }, kept⟩ := by
  refine ⟨?held, ?locked, ?live, hnodup⟩
  case held =>
    rw [levels_setIfInBounds hget lock' hlevel _ thread]
    exact hheld
  case locked =>
    intro i other hother
    obtain ⟨rfl, rfl⟩ | ⟨hne, hother⟩ := spin?_setIfInBounds_cases hother
    · exact hplace
    · exact (h.locked i other hother).trans (hothers i hne)
  case live =>
    intro i hmem
    by_cases hi : i = place
    · exact exists_spin?_setIfInBounds i (hi ▸ hget)
    · obtain ⟨other, hother⟩ := h.live i ((hothers i hi).2 hmem)
      exact exists_spin?_setIfInBounds i hother

/-- A guard of a spin lock is dropped. -/
theorem held_perm_erase (h : keeper.Balanced) {place : Nat} {lock : SpinLock}
    (hget : keeper.table.spin? place = some lock) (hkept : place ∈ keeper.kept) :
    (keeper.thread.leave lock.level).held.Perm
      (levels ⟨keeper.thread.leave lock.level, keeper.table, keeper.kept.erase place⟩) := by
  have hlevels : keeper.levels.Perm
      (lock.level :: levels ⟨keeper.thread, keeper.table, keeper.kept.erase place⟩) := by
    refine (((List.perm_cons_erase hkept).filterMap _).append_left _).trans ?_
    simp only [List.filterMap_cons, hget, Option.map_some]
    exact List.perm_middle
  have herased := (h.held.trans hlevels).erase lock.level
  rwa [List.erase_cons_head] at herased

/-- No request puts a thread out of balance. -/
theorem effect (h : keeper.Balanced) {result : Except Fault Bool} {keeper' : Keeper}
    (heffect : keeper.Effect request result keeper') : keeper'.Balanced := by
  cases heffect with
  | refused | contended => exact h
  | held hrank =>
    refine ⟨?_, h.locked, h.live, h.nodup⟩
    refine (h.held.cons _).trans ?_
    simp only [levels, Array.toList_push, List.append_assoc, List.singleton_append]
    exact List.perm_middle.symm
  | released hget => exact h.release hget
  | @made level value => exact h.push level value
  | @acquired _ place lock _ hget hfree hrank =>
    have hfresh : place ∉ keeper.kept := by
      rw [← h.locked place lock hget, hfree]
      exact Bool.false_ne_true
    refine h.setSpin hget { lock with locked := true } rfl ?_ (by simp) ?_
      (List.nodup_cons.2 ⟨hfresh, h.nodup⟩)
    · rw [levels, List.filterMap_cons]
      simp only [hget, Option.map_some]
      exact (h.held.cons _).trans List.perm_middle.symm
    · exact fun i hi => by simp [hi]
  | @added place amount lock hget =>
    have hsame : (lock.add amount).2.level = lock.level ∧
        (lock.add amount).2.locked = lock.locked := by
      unfold SpinLock.add
      split <;> exact ⟨rfl, rfl⟩
    refine h.setSpin hget _ hsame.1 h.held ?_ (fun _ _ => .rfl) h.nodup
    rw [hsame.2]
    exact h.locked place lock hget
  | @unlocked place lock hget hkept =>
    refine h.setSpin hget { lock with locked := false } rfl (h.held_perm_erase hget hkept) ?_ ?_
      (h.nodup.erase place)
    · simp [h.nodup.mem_erase_iff]
    · exact fun i hi => (List.mem_erase_of_ne hi).symm

end Balanced

/-- What may come of any number of requests. -/
def Runs : Keeper → Keeper → Prop :=
  Relation.ReflTransGen fun keeper keeper' =>
    ∃ request result, keeper.perform request = some (result, keeper')

/-- A thread does nothing but make calls. -/
theorem exists_call_of_perform {result : Except Fault Bool} {keeper' : Keeper}
    (hperform : keeper.perform request = some (result, keeper')) :
    ∃ call, keeper.call? request = some call := by
  obtain ⟨call, hcall, -⟩ := Option.bind_eq_some_iff.1 hperform
  exact ⟨call, hcall⟩

/-- A thread that began with nothing is always balanced. -/
theorem Runs.balanced {thread : Thread} (hheld : thread.held = [])
    (hrun : Runs ⟨thread, {}, []⟩ keeper) : keeper.Balanced := by
  induction hrun with
  | refl => exact .of_held_nil hheld
  | tail _ hstep ih =>
    obtain ⟨request, result, hperform⟩ := hstep
    obtain ⟨call, hcall⟩ := exists_call_of_perform hperform
    obtain ⟨result', keeper', hperform', heffect⟩ := perform_effect ih hcall
    cases hperform.symm.trans hperform'
    exact ih.effect heffect

/-- What comes of a request that acquires a lock. -/
structure Acquisition (keeper : Keeper) (request : LockRequest) (level : Level)
    (result : Except Fault Bool) (keeper' : Keeper) : Prop where
  /-- It is refused exactly when its level is below one that is held. -/
  refused_iff : result = .error (.lockOrder level keeper.thread.held.rank) ↔
    level.rank < keeper.thread.held.rank
  /-- It has no other fault. -/
  fault : ∀ fault, result = .error fault → fault = .lockOrder level keeper.thread.held.rank
  /-- If its level is allowed, it fails exactly if the lock is tried and taken. -/
  contended_iff : result = .ok false ↔ keeper.thread.held.rank ≤ level.rank ∧
    ∃ place lock, request = .tryLock place ∧ keeper.table.spin? place = some lock ∧
      lock.locked = true
  /-- If it fails, everything is as it was: the levels, the flags and the counters. -/
  unchanged : result ≠ .ok true → keeper' = keeper

/-- What a request for a level comes to is what the account says. -/
theorem Effect.acquisition {level : Level} {result : Except Fault Bool} {keeper' : Keeper}
    (heffect : keeper.Effect request result keeper')
    (hacquires : keeper.acquires? request = some level) :
    keeper.Acquisition request level result keeper' := by
  cases heffect with
  | refused hacquires' hrank =>
    cases hacquires.symm.trans hacquires'
    refine ⟨iff_of_true rfl hrank, ?_, ?_, fun _ => rfl⟩
    · rintro fault ⟨⟩
      rfl
    · exact ⟨nofun, fun hcontended => absurd hcontended.1 (by omega)⟩
  | held hrank =>
    cases hacquires
    refine ⟨⟨nofun, fun hlt => absurd hlt (by omega)⟩, nofun, ⟨nofun, ?_⟩, fun hfailed => ?_⟩
    · rintro ⟨-, _, _, hrequest, -⟩
      cases hrequest
    · exact absurd rfl hfailed
  | @acquired _ place lock hrequest hget hfree hrank =>
    have hlevel : level = lock.level := by
      obtain rfl | rfl := hrequest <;>
        simpa [acquires?, hget] using hacquires.symm
    subst hlevel
    refine ⟨⟨nofun, fun hlt => absurd hlt (by omega)⟩, nofun, ⟨nofun, ?_⟩, fun hfailed => ?_⟩
    · rintro ⟨-, place', lock', rfl, hget', hlocked⟩
      obtain hrequest | hrequest := hrequest
      · cases hrequest
      · cases hrequest
        cases hget.symm.trans hget'
        rw [hfree] at hlocked
        cases hlocked
    · exact absurd rfl hfailed
  | @contended place lock hget hlocked hrank =>
    have hlevel : level = lock.level := by simpa [acquires?, hget] using hacquires.symm
    subst hlevel
    refine ⟨⟨nofun, fun hlt => absurd hlt (by omega)⟩, nofun, ?_, fun _ => rfl⟩
    exact iff_of_true rfl ⟨hrank, place, lock, rfl, hget, hlocked⟩
  | released | made | added | unlocked => cases hacquires

/-- No other request is refused for its level. -/
theorem Effect.ne_lockOrder {result : Except Fault Bool} {keeper' : Keeper}
    (heffect : keeper.Effect request result keeper') (hacquires : keeper.acquires? request = none)
    (level : Level) (rank : Nat) : result ≠ .error (.lockOrder level rank) := by
  cases heffect with
  | refused hacquires' => cases hacquires.symm.trans hacquires'
  | held | acquired | contended | released | made | unlocked => nofun
  | @added place amount lock hget =>
    have hfault : ∀ fault, (lock.add amount).1 = .error fault → fault = .addOverflow := by
      intro fault
      rw [SpinLock.add, addCounts]
      by_cases hfits : lock.value + amount < UInt64.size
      · rw [if_pos hfits]
        nofun
      · rw [if_neg hfits]
        rintro ⟨⟩
        rfl
    intro hresult
    cases hsum : (lock.add amount).1 with
    | ok sum =>
      rw [hsum] at hresult
      cases hresult
    | error fault =>
      rw [hsum, hfault fault hsum] at hresult
      cases hresult

/-- At every moment what a thread holds is what its live guards stand for, its rank is that of the
highest level among them, or 0 if there is none, and a spin lock is locked exactly as long as there
is a guard of it. Every request that can be made comes to its end; one that acquires a lock is
refused exactly if its level is below the rank, and leaves everything as it was if it fails. -/
theorem run_accounts {thread : Thread} (hheld : thread.held = [])
    (hrun : Runs ⟨thread, {}, []⟩ keeper) :
    keeper.thread.held.Perm keeper.levels ∧
      (∀ level ∈ keeper.levels, level.rank ≤ keeper.thread.held.rank) ∧
      (keeper.levels = [] ∧ keeper.thread.held.rank = 0 ∨
        ∃ level ∈ keeper.levels, level.rank = keeper.thread.held.rank) ∧
      keeper.kept.Nodup ∧
      (∀ place lock, keeper.table.spin? place = some lock →
        (lock.locked = true ↔ place ∈ keeper.kept)) ∧
      ∀ request call, keeper.call? request = some call →
        ∃ result keeper', keeper.perform request = some (result, keeper') ∧
          (∀ level, keeper.acquires? request = some level →
            keeper.Acquisition request level result keeper') ∧
          (keeper.acquires? request = none →
            ∀ level rank, result ≠ .error (.lockOrder level rank)) := by
  have hbalanced := hrun.balanced hheld
  have hmem : ∀ level, level ∈ keeper.levels ↔ level ∈ keeper.thread.held :=
    fun level => hbalanced.held.symm.mem_iff
  refine ⟨hbalanced.held, ?_, ?_, hbalanced.nodup, hbalanced.locked, ?_⟩
  · exact fun level hlevel => Held.rank_le_rank ((hmem level).1 hlevel)
  · obtain ⟨hnone, hzero⟩ | ⟨level, hlevel, hrank⟩ := Held.rank_attained keeper.thread.held
    · have hperm := hbalanced.held
      rw [hnone] at hperm
      exact .inl ⟨hperm.nil_eq.symm, hzero⟩
    · exact .inr ⟨level, (hmem level).2 hlevel, hrank⟩
  · intro request call hcall
    obtain ⟨result, keeper', hperform, heffect⟩ := perform_effect hbalanced hcall
    exact ⟨result, keeper', hperform, fun level => heffect.acquisition, heffect.ne_lockOrder⟩

/-- A thread that keeps the guard of a spin lock tries to lock it once more, and asks for a level
below that of the lock. -/
theorem run_accounts_full :
    ∃ keeper, Runs ⟨{}, {}, []⟩ keeper ∧ keeper.levels = [.heap, .marks] ∧
      keeper.thread.held.Perm keeper.levels ∧
      (∃ result keeper', keeper.perform (.tryLock 0) = some (result, keeper') ∧
        keeper.Acquisition (.tryLock 0) .marks result keeper') ∧
      ∃ result keeper', keeper.perform (.hold .cycle) = some (result, keeper') ∧
        keeper.Acquisition (.hold .cycle) .cycle result keeper' := by
  have hrun : Runs ⟨{}, {}, []⟩ ⟨⟨[.marks, .heap], []⟩, ⟨#[.heap], #[⟨.marks, true, 7⟩]⟩, [0]⟩ :=
    .head ⟨.hold .heap, _, rfl⟩ (.head ⟨.makeSpin .marks 7, _, rfl⟩ (.single ⟨.lock 0, _, rfl⟩))
  obtain ⟨hperm, -, -, -, -, hrequests⟩ := run_accounts rfl hrun
  obtain ⟨result, keeper', hperform, hacquires, -⟩ := hrequests (.tryLock 0) _ rfl
  obtain ⟨result₂, keeper₂, hperform₂, hacquires₂, -⟩ := hrequests (.hold .cycle) _ rfl
  exact ⟨_, hrun, rfl, hperm, ⟨result, keeper', hperform, hacquires .marks rfl⟩,
    result₂, keeper₂, hperform₂, hacquires₂ .cycle rfl⟩

end Keeper

end MarkSweep
