import MarkSweep.Heap.Entry
import MarkSweep.Thread

namespace MarkSweep

/-- The number of a frame, in order of creation. -/
abbrev FrameId := Nat

/-- One activation record. -/
structure Frame where
  operands : Array Slot
  locals : Array Slot
  below : Option FrameId
deriving DecidableEq, Repr

/-- Every frame that was ever pushed, by number. -/
abbrev Frames := Array Frame

/-- The frames of one mutator thread, top first. -/
abbrev CallStack := List FrameId

/-- The two rows of cells of a frame. -/
inductive FrameRow
  | operands
  | locals
deriving DecidableEq, Repr

namespace Frame

/-- A frame of null cells above another one. -/
def nulls (operands locals : Nat) (below : Option FrameId) : Except Fault Frame := do
  return ⟨← nullCells operands, ← nullCells locals, below⟩

def row (frame : Frame) : FrameRow → Array Slot
  | .operands => frame.operands
  | .locals => frame.locals

/-- Overwrites a cell of a row, unless the row is too short. -/
def setRow? (frame : Frame) (row : FrameRow) (index : Nat) (value : Slot) : Option Frame :=
  match row with
  | .operands => (setCell? frame.operands index value).map ({ frame with operands := · })
  | .locals => (setCell? frame.locals index value).map ({ frame with locals := · })

end Frame

namespace Frames

/-- Puts a new frame of null cells on a stack. The answer is the number of the frame and the stack
as it is afterwards. The frame takes the stack over before it has its cells, so that a frame that
cannot have them leaves the stack empty. -/
def push (frames : Frames) (stack : CallStack) (operands locals : Nat) :
    (Except Fault FrameId × CallStack) × Frames :=
  match Frame.nulls operands locals stack.head? with
  | .ok frame => ((.ok frames.size, frames.size :: stack), Array.push frames frame)
  | .error fault => ((.error fault, []), frames)

/-- The cells of a row of a frame; a frame that was never pushed has none. -/
def row (frames : Frames) (id : FrameId) (row : FrameRow) : List Slot :=
  match frames[id]? with
  | some frame => (frame.row row).toList
  | none => []

/-- Overwrites a cell; the answer is whether there is one. -/
def setRow (frames : Frames) (id : FrameId) (row : FrameRow) (index : Nat) (value : Slot) :
    Bool × Frames :=
  match frames[id]? >>= (·.setRow? row index value) with
  | some frame => (true, frames.setIfInBounds id frame)
  | none => (false, frames)

/-- Overwrites a cell at the heap level of the lock order. -/
def writeRow (id : FrameId) (row : FrameRow) (index : Nat) (value : Slot) : Call Frames Bool :=
  .guarded .heap <| .atomic (·.setRow id row index value)

/-- The cells of a row, read at the heap level of the lock order. -/
def readRow (id : FrameId) (row : FrameRow) : Call Frames (List Slot) :=
  .guarded .heap <| .read (·.row id row)

/-- Stores values in the cells of a row, one after another from the first. -/
def fillRow (id : FrameId) (row : FrameRow) (values : List Slot) : Call Frames Unit :=
  (values.zipIdx).forM fun (value, index) => do
    let _ ← writeRow id row index value

end Frames

end MarkSweep
