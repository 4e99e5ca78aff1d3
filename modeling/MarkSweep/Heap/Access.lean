import MarkSweep.Heap.Store
import MarkSweep.Thread

namespace MarkSweep.Heap

/-- Moves the counter past `offset`; the last offset has nothing past it. -/
def reservePast (offset : Offset) : Call Heap Unit :=
  .attempt fun heap =>
    match nextAfter offset with
    | .ok next => (.ok (), heap.reserve next)
    | .error fault => (.error fault, heap)

/-- Stores an object at an offset that the caller names. The offset counter moves past the offset
before the entry is stored, so a call that faults on the way may already have moved it. -/
def insertObject (offset : Offset) (object : ObjectEntry) : Call Heap Ref :=
  .guarded .heap do
    reservePast offset
    .update (·.putObject offset object)
    return .object offset

/-- Stores an array at an offset that the caller names. -/
def insertArray (offset : Offset) (array : ArrayEntry) : Call Heap Ref :=
  .guarded .heap do
    reservePast offset
    .update (·.putArray offset array)
    return .array offset

def insertMonitor (offset : Offset) (monitor : Monitor) : Call Heap Unit :=
  .guarded .heap <| .update (·.putMonitor offset monitor)

/-- Stores an object at an offset of its own, which it takes before anything else. -/
def allocateObject (object : ObjectEntry) : Call Heap Ref := do
  let offset ← .atomic takeOffset
  insertObject offset object

/-- Stores an array at an offset of its own. -/
def allocateArray (array : ArrayEntry) : Call Heap Ref := do
  let offset ← .atomic takeOffset
  insertArray offset array

/-- Overwrites a field; the answer is whether there is one. -/
def writeField (offset : Offset) (index : Nat) (value : Slot) : Call Heap Bool :=
  .guarded .heap <| .atomic (·.setField offset index value)

/-- Overwrites an element; the answer is whether there is one. -/
def writeElement (offset : Offset) (index : Nat) (value : Slot) : Call Heap Bool :=
  .guarded .heap <| .atomic (·.setElement offset index value)

def readFields (offset : Offset) : Call Heap (Option (List Slot)) :=
  .guarded .heap <| .read (·.slotsOf? (.object offset))

/-- The element count and the elements of an array. -/
def readElements (offset : Offset) : Call Heap (Option (Nat × List Slot)) :=
  .guarded .heap <| .read fun heap =>
    heap.arrays[offset]?.map fun array => (array.length, array.elements)

def hasEntry (ref : Ref) : Call Heap Bool :=
  .guarded .heap <| .read (·.contains ref)

def hasMonitor (offset : Offset) : Call Heap Bool :=
  .guarded .heap <| .read (·.monitors.contains offset)

/-- Runs `f` on the monitor of an offset, if it has one. -/
def useMonitor {α : Type} (offset : Offset) (f : Monitor → Except Fault α × Monitor) :
    Call Heap (Option α) :=
  .guarded .heap <| .attempt (·.withMonitor offset f)

def readStats : Call Heap HeapStats :=
  .guarded .heap <| .read (·.stats)

/-- Everything that a heap holds, by offset. -/
structure Contents where
  objects : List (Offset × List Slot) := []
  /-- The arrays with their element counts and their elements. -/
  arrays : List (Offset × Nat × List Slot) := []
  monitors : List Offset := []

def contents (heap : Heap) : Contents where
  objects := heap.objects.toList.map fun (offset, object) => (offset, slots object)
  arrays := heap.arrays.toList.map fun (offset, array) => (offset, array.length, array.elements)
  monitors := heap.monitors.keys

/-- Everything that the heap holds, read at the heap level of the lock order. -/
def readContents : Call Heap Contents := .guarded .heap <| .read (·.contents)

/-- Stores `count` entries at fresh offsets, one after another. `build` makes each of them from
its place in the row and a slot that refers to the one before it, the first from `previous`. The
answer refers to the last one. -/
def allocateRow (build : Nat → Slot → ObjectEntry ⊕ ArrayEntry) :
    (count place : Nat) → (previous : Slot) → Call Heap Slot
  | 0, _, previous => return previous
  | count + 1, place, previous => do
    let ref ←
      match build place previous with
      | .inl object => allocateObject object
      | .inr array => allocateArray array
    allocateRow build count (place + 1) (some ref)

end MarkSweep.Heap
