import MarkSweep.Lock.Spin
import MarkSweep.Thread

namespace MarkSweep

/-- The live guards and the spin locks of one thread. -/
structure LockTable where
  /-- The levels of the live guards, the earliest first. -/
  guards : Array Level := #[]
  /-- The spin locks; one that is locked has a live guard of this thread. -/
  spins : Array SpinLock := #[]

namespace LockTable

def enterLevel (level : Level) : Call LockTable Unit :=
  .onThread fun thread =>
    match thread.enter level with
    | .ok thread => (.ok (), thread)
    | .error fault => (.error fault, thread)

def leaveLevel (level : Level) : Call LockTable Unit :=
  .onThread fun thread => (.ok (), thread.leave level)

/-- Enters a level and keeps the guard. -/
def hold (level : Level) : Call LockTable Unit := do
  enterLevel level
  .update fun table => { table with guards := table.guards.push level }

/-- Drops a guard; the answer is whether there was one at this place. -/
def release (index : Nat) : Call LockTable Bool := do
  let guard? ← .atomic fun table =>
    (table.guards[index]?, { table with guards := table.guards.eraseIdxIfInBounds index })
  match guard? with
  | some level => do leaveLevel level; return true
  | none => return false

/-- Makes a spin lock; the answer is its place. -/
def newSpin (lock : SpinLock) : Call LockTable Nat :=
  .atomic fun table => (table.spins.size, { table with spins := table.spins.push lock })

def spin? (table : LockTable) (index : Nat) : Option SpinLock := table.spins[index]?

/-- One access to the spin lock at a place. -/
def onSpin {α : Type} (index : Nat) (f : SpinLock → α × SpinLock) :
    Call LockTable (Option α) :=
  .atomic fun table =>
    match table.spins[index]? with
    | some lock =>
      let (a, lock) := f lock
      (some a, { table with spins := table.spins.setIfInBounds index lock })
    | none => (none, table)

/-- Takes a free spin lock and keeps its guard; the answer is the counter. -/
def lockSpin (index : Nat) (lock : SpinLock) : Call LockTable Nat := do
  enterLevel lock.level
  .await fun table =>
    match table.spins[index]? with
    | some lock =>
      match lock.acquire with
      | (true, acquired) =>
        some (lock.value, { table with spins := table.spins.setIfInBounds index acquired })
      | (false, _) => none
    | none => none

/-- Takes a spin lock if it is free, and then keeps its guard; the answer is whether it was. -/
def tryLockSpin (index : Nat) (lock : SpinLock) : Call LockTable Bool := do
  enterLevel lock.level
  match ← onSpin index SpinLock.acquire with
  | some true => return true
  | some false | none => do leaveLevel lock.level; return false

def unlockSpin (index : Nat) (lock : SpinLock) : Call LockTable Unit := do
  let _ ← onSpin index fun lock => ((), lock.unlock)
  leaveLevel lock.level

/-- Adds to the counter of a spin lock through its guard; the answer is the new value. -/
def addSpin (index : Nat) (amount : Nat) : Call LockTable Nat := do
  match ← onSpin index fun lock => lock.add amount with
  | some (.ok sum) => return sum
  | some (.error fault) => .fault fault
  | none => return 0

/-- Lets other threads race for a spin lock, and then takes it for a look at the counter. -/
def raceSpin (index : Nat) (lock : SpinLock) (threads times : Nat) : Call LockTable Nat := do
  let _ ← onSpin index fun lock => ((), lock.race threads times)
  let value ← lockSpin index lock
  unlockSpin index lock
  return value

/-- Whether a lock of a level may be taken while one of rank `held` is held. -/
def validate (level : Level) (held : Nat) : Call LockTable Unit :=
  if level.mayFollow held then pure () else .fault (.lockOrder level held)

end LockTable

end MarkSweep
