import MarkSweep.Fault

namespace MarkSweep

/-- The number by which a mutator thread is known to monitors. -/
abbrev ThreadId := Nat

/-- A re-entrant lock: who owns it and how often the owner is inside. Its owner may enter again and
has to leave as often. -/
structure Monitor where
  /-- The thread inside, if any. -/
  owner : Option ThreadId := none
  /-- How many times the owner has entered and not left. -/
  recursion : Nat := 0
deriving DecidableEq, Repr

namespace Monitor

/-- Entries a monitor can count. -/
def recursionLimit : Nat := UInt32.size

/-- Records `thread` as the owner and counts one entry. The owner comes first, so it stays
recorded when the count is full. -/
def countEntry (monitor : Monitor) (thread : ThreadId) : Except Fault Bool × Monitor :=
  let owned := { monitor with owner := some thread }
  if monitor.recursion + 1 < recursionLimit then
    (.ok true, { owned with recursion := monitor.recursion + 1 })
  else
    (.error .addOverflow, owned)

/-- Enters on behalf of `thread`; the answer is whether nobody else was inside. -/
def enter (monitor : Monitor) (thread : ThreadId) : Except Fault Bool × Monitor :=
  match monitor.owner with
  | some owner => if owner = thread then monitor.countEntry thread else (.ok false, monitor)
  | none => monitor.countEntry thread

/-- Leaves once on behalf of `thread`; the answer is whether it was the owner. The last exit
frees the monitor. -/
def exit (monitor : Monitor) (thread : ThreadId) : Except Fault Bool × Monitor :=
  if monitor.owner = some thread then
    match monitor.recursion with
    | 0 => (.error .subtractOverflow, monitor)
    | 1 => (.ok true, { owner := none, recursion := 0 })
    | n + 2 => (.ok true, { monitor with recursion := n + 1 })
  else
    (.ok false, monitor)

end Monitor

end MarkSweep
