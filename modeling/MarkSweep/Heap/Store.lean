import MarkSweep.Heap.Entry
import MarkSweep.Heap.Monitor
import Std.Data.ExtTreeMap

namespace MarkSweep

/-- Entries keyed by offset; two containers with the same entries are equal. -/
abbrev Container (α : Type) := Std.ExtTreeMap Offset α

/-- How many entries each container holds. -/
structure HeapStats where
  objects : Nat := 0
  arrays : Nat := 0
  monitors : Nat := 0
deriving DecidableEq, Repr

namespace HeapStats

/-- How many values were counted. The sum is checked, since the counts may have been filled in by
anybody. -/
def values (stats : HeapStats) : Except Fault Nat := addCounts stats.objects stats.arrays

def render (stats : HeapStats) : String :=
  "HeapStats \x7b objects: " ++ toString stats.objects ++ ", arrays: " ++ toString stats.arrays
    ++ ", monitors: " ++ toString stats.monitors ++ " \x7d"

end HeapStats

/-- The three containers and the counter that hands out offsets. Objects and arrays draw their
offsets from one counter; a monitor is keyed by the offset of the value that it guards. -/
structure Heap where
  objects : Container ObjectEntry := ∅
  arrays : Container ArrayEntry := ∅
  /-- Monitors, by the offset of the value they guard. -/
  monitors : Container Monitor := ∅
  /-- The offset that the next allocation takes. -/
  nextOffset : Offset := 1

namespace Heap

/-- Takes the next offset; the counter starts again at 0 after the last one. -/
def takeOffset (heap : Heap) : Offset × Heap :=
  (heap.nextOffset, { heap with nextOffset := heap.nextOffset + 1 })

/-- Moves the counter up to `offset`, unless it is there already. -/
def reserve (heap : Heap) (offset : Offset) : Heap :=
  { heap with nextOffset := max heap.nextOffset offset }

/-- Stores an object, in place of any other at this offset. -/
def putObject (heap : Heap) (offset : Offset) (object : ObjectEntry) : Heap :=
  { heap with objects := heap.objects.insert offset object }

/-- Stores an array, in place of any other at this offset. -/
def putArray (heap : Heap) (offset : Offset) (array : ArrayEntry) : Heap :=
  { heap with arrays := heap.arrays.insert offset array }

/-- Stores a monitor, in place of any other at this offset. -/
def putMonitor (heap : Heap) (offset : Offset) (monitor : Monitor) : Heap :=
  { heap with monitors := heap.monitors.insert offset monitor }

/-- Overwrites a field; the answer is whether there are such an object and such a field. -/
def setField (heap : Heap) (offset : Offset) (index : Nat) (value : Slot) : Bool × Heap :=
  match heap.objects[offset]? >>= (·.setField? index value) with
  | some object => (true, heap.putObject offset object)
  | none => (false, heap)

/-- Overwrites an element; the answer is whether there are such an array and such an element. -/
def setElement (heap : Heap) (offset : Offset) (index : Nat) (value : Slot) : Bool × Heap :=
  match heap.arrays[offset]? >>= (·.setElement? index value) with
  | some array => (true, heap.putArray offset array)
  | none => (false, heap)

def contains (heap : Heap) : Ref → Bool
  | .object offset => heap.objects.contains offset
  | .array offset => heap.arrays.contains offset

/-- The slots of the entry that the reference names, if it exists. -/
def slotsOf? (heap : Heap) : Ref → Option (List Slot)
  | .object offset => heap.objects[offset]?.map slots
  | .array offset => heap.arrays[offset]?.map slots

/-- Applies `f` to a monitor and keeps what it leaves behind, also when it faults. -/
def withMonitor {α : Type} (heap : Heap) (offset : Offset)
    (f : Monitor → Except Fault α × Monitor) : Except Fault (Option α) × Heap :=
  match heap.monitors[offset]? with
  | some monitor =>
    let (result, monitor) := f monitor
    (result.map some, heap.putMonitor offset monitor)
  | none => (.ok none, heap)

def stats (heap : Heap) : HeapStats :=
  ⟨heap.objects.size, heap.arrays.size, heap.monitors.size⟩

/-- The entries that can be read are those that are there. -/
theorem slotsOf?_isSome (heap : Heap) (ref : Ref) :
    (heap.slotsOf? ref).isSome = heap.contains ref := by
  cases ref <;> simp [slotsOf?, contains]

end Heap

end MarkSweep
