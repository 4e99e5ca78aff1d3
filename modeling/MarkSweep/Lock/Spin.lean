import MarkSweep.Lock.Race

namespace MarkSweep

/-- A busy-wait lock around a 64-bit counter. -/
structure SpinLock where
  /-- The level of the lock order at which it is taken. -/
  level : Level := .marks
  locked : Bool := false
  value : Nat := 0
deriving DecidableEq, Repr

namespace SpinLock

def render (lock : SpinLock) : String :=
  "SpinLock \x7b locked: " ++ toString lock.locked ++ ", order: " ++ lock.level.name ++ ", .. \x7d"

/-- Exchanges `false` for `true` in the flag; the answer is whether it was `false`. -/
def acquire (lock : SpinLock) : Bool × SpinLock := (!lock.locked, { lock with locked := true })

def unlock (lock : SpinLock) : SpinLock := { lock with locked := false }

/-- Adds to the counter; the answer is the new value. -/
def add (lock : SpinLock) (amount : Nat) : Except Fault Nat × SpinLock :=
  match addCounts lock.value amount with
  | .ok sum => (.ok sum, { lock with value := sum })
  | .error fault => (.error fault, lock)

/-- A critical section that adds to the counter. -/
def adding (amount : Nat) : CriticalSection Nat Nat where
  body := .ofUpdate fun value => (addCounts value amount).map fun sum => (sum, sum)

/-- Threads that each add 1 to the counter `times` times. -/
def toRace (lock : SpinLock) (threads times : Nat) : Race Nat Nat :=
  { Race.start lock.value (.replicate threads (.replicate times (adding 1))) with
    locked := lock.locked }

/-- Lets `threads` threads each add 1 to the counter of a lock `times` times. A thread that is not
interrupted inside a critical section takes four steps in each: it exchanges the flag, reads the
counter, writes it and stores the flag. -/
def race (lock : SpinLock) (threads times : Nat) : SpinLock :=
  let race := Race.run (threads * (4 * times)) (lock.toRace threads times)
  { lock with locked := race.locked, value := race.value }

end SpinLock

end MarkSweep
