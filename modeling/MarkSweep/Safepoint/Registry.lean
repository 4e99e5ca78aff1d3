import MarkSweep.Thread

namespace MarkSweep

/-- A counter of mutator threads. -/
structure Registry where
  count : Nat := 0
deriving DecidableEq, Repr

namespace Registry

/-- Counts one more thread; the answer is the new count. The counter starts again at 0 where the
new count does not fit, and only then the call faults. -/
def enrol (registry : Registry) : Except Fault Nat × Registry :=
  if registry.count + 1 < UInt64.size then (.ok (registry.count + 1), ⟨registry.count + 1⟩)
  else (.error .addOverflow, ⟨0⟩)

/-- Counts one thread less, if there is one; the answer is the new count. -/
def withdraw (registry : Registry) : Nat × Registry :=
  (registry.count - 1, ⟨registry.count - 1⟩)

def register : Call Registry Nat := .attempt enrol

def unregister : Call Registry Nat := .atomic withdraw

end Registry

end MarkSweep
