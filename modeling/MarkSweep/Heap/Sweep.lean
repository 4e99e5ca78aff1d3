import MarkSweep.Heap.Access
import MarkSweep.Mark.MarkSet
import MarkSweep.Total

namespace MarkSweep

/-- The three containers of a heap. -/
inductive Region
  | objects
  | arrays
  | monitors
deriving DecidableEq, Repr

/-- What was erased, or visited, in one pass. -/
structure Tally where
  entries : Nat := 0
  elements : Nat := 0
deriving DecidableEq, Repr, Inhabited

/-- Splits a container into the payloads that are given up and the entries that stay. -/
def Container.eraseDead {α : Type} (entries : Container α) (isLive : Offset → Bool) :
    List α × Container α :=
  ((entries.filter fun offset _ => !isLive offset).values, entries.filter fun offset _ =>
    isLive offset)

namespace Heap

/-- Whether a sweep of a container keeps the entry at an offset. -/
def keeps (live : LiveSet) : Region → Offset → Bool
  | .objects, offset => live.objects.contains offset
  | .arrays, offset => live.arrays.contains offset
  | .monitors, offset => live.objects.contains offset || live.arrays.contains offset

/-- Erases the dead entries of one container. -/
def erase (heap : Heap) (live : LiveSet) (region : Region) : Tally × Heap :=
  match region with
  | .objects =>
    let (dead, objects) := Container.eraseDead heap.objects (keeps live .objects)
    (⟨dead.length, 0⟩, { heap with objects })
  | .arrays =>
    let (dead, arrays) := Container.eraseDead heap.arrays (keeps live .arrays)
    (⟨dead.length, total ArrayEntry.released dead⟩, { heap with arrays })
  | .monitors =>
    let (dead, monitors) := Container.eraseDead heap.monitors (keeps live .monitors)
    (⟨dead.length, 0⟩, { heap with monitors })

/-- What is erased gives no offset back. -/
theorem nextOffset_erase (heap : Heap) (live : LiveSet) (region : Region) :
    (heap.erase live region).2.nextOffset = heap.nextOffset := by
  cases region <;> rfl

/-- Sweeps one container at the heap level of the lock order. -/
def sweep (live : LiveSet) (region : Region) : Call Heap Tally :=
  .guarded .heap <| .atomic (·.erase live region)

end Heap

end MarkSweep
