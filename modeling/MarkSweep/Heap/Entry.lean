import MarkSweep.Fault

namespace MarkSweep

/-- The bytes of a cell that holds a slot. -/
def cellBytes : Nat := 16

/-- A row of `count` null cells, which are stored in one piece. -/
def nullCells (count : Nat) : Except Fault (Array Slot) := do
  checkCapacity count cellBytes
  return Array.replicate count none

/-- Replaces cell `index` of a row of slots, unless the row is too short. -/
def setCell? (cells : Array Slot) (index : Nat) (value : Slot) : Option (Array Slot) :=
  if h : index < cells.size then some (cells.set index value h) else none

/-- The payload of an object: its field slots in declaration order. -/
structure ObjectEntry where
  fields : Array Slot := #[]
deriving DecidableEq, Repr

namespace ObjectEntry

def nulls (count : Nat) : Except Fault ObjectEntry := ObjectEntry.mk <$> nullCells count

/-- Overwrites a field, unless there is no such field. -/
def setField? (object : ObjectEntry) (index : Nat) (value : Slot) : Option ObjectEntry :=
  (setCell? object.fields index value).map ObjectEntry.mk

instance : HasSlots ObjectEntry := ⟨fun object => slots object.fields⟩

end ObjectEntry

/-- The payload of an array: its element count and the storage that the elements start. -/
structure ArrayEntry where
  /-- How many cells of the storage are elements. -/
  length : Nat
  /-- The backing cells, possibly more than there are elements. -/
  storage : Array Slot
  length_le : length ≤ storage.size
deriving DecidableEq

namespace ArrayEntry

/-- An array whose elements are all of `storage`. -/
def ofStorage (storage : Array Slot) : ArrayEntry := ⟨storage.size, storage, Nat.le_refl _⟩

def nulls (count : Nat) : Except Fault ArrayEntry := ofStorage <$> nullCells count

/-- An array of the first `length` cells of `storage`. -/
def ofParts (length : Nat) (storage : Array Slot) : Except Fault ArrayEntry :=
  if h : length ≤ storage.size then .ok ⟨length, storage, h⟩
  else .error (.lengthExceedsStorage length storage.size)

/-- Whether there are no elements; the storage may still have cells. -/
def isEmpty (array : ArrayEntry) : Bool := array.length == 0

def elements (array : ArrayEntry) : List Slot := array.storage.toList.take array.length

/-- Overwrites an element. A cell past the count is not an element, also where the storage has
one. -/
def setElement? (array : ArrayEntry) (index : Nat) (value : Slot) : Option ArrayEntry :=
  if h : index < array.length then
    some { array with
      storage := array.storage.set index value (Nat.lt_of_lt_of_le h array.length_le)
      length_le := by rw [Array.size_set]; exact array.length_le }
  else
    none

/-- The number of elements given up when the array is released. -/
def released (array : ArrayEntry) : Nat := array.elements.length

instance : HasSlots ArrayEntry := ⟨elements⟩

/-- An array has as many elements as it says. -/
@[simp] theorem length_elements (array : ArrayEntry) : array.elements.length = array.length := by
  simp [elements, Nat.min_eq_left array.length_le]

/-- An array releases its elements, and nothing of the storage past them. -/
@[simp] theorem released_eq_length (array : ArrayEntry) : array.released = array.length :=
  array.length_elements

end ArrayEntry

end MarkSweep
