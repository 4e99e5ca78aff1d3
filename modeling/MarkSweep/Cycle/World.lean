import MarkSweep.Config
import MarkSweep.Heap.Store
import MarkSweep.Mark.MarkSet
import MarkSweep.Metrics
import MarkSweep.Roots.Frame
import MarkSweep.Roots.MethodArea
import MarkSweep.Safepoint.Barrier

namespace MarkSweep

/-- Decides from the entry counts whether a collection should be asked for. -/
abbrev Condition := HeapStats → Except Fault Bool

/-- How many objects and arrays a heap may hold before the standard condition asks for a
collection. -/
def standardThreshold : Nat := 65536

/-- Asks for a collection once the heap holds as many values as the standard threshold. -/
def standardCondition : Condition := fun stats => do
  return decide (standardThreshold ≤ (← stats.values))

/-- What the cycle lock protects. -/
structure CycleState where
  /-- Whether a thread holds the cycle lock across several steps. -/
  busy : Bool := false
  /-- Whether a collection was asked for since the last one that succeeded. -/
  pressure : Bool := false
  lastMetrics : Option Metrics := none
  /-- How many collections have succeeded. It goes up by one with each of them, so that it stays
  far below the limit of a word. -/
  total : Nat := 0
deriving DecidableEq

/-- The pairs of mark sets: those of the collector, and a spare pair for marking at will. -/
inductive Sheet
  | collector
  | spare
deriving DecidableEq, Repr

/-- Everything that threads share, apart from the pool of the collector. -/
structure World where
  heap : Heap := {}
  frames : Frames := #[]
  methods : MethodArea := {}
  safepoint : Safepoint := {}
  marks : Marks := {}
  /-- The spare mark sets. -/
  spare : Marks := {}
  cycle : CycleState := {}
  /-- When an allocation asks for a collection. -/
  condition : Condition := standardCondition
  config : Config := {}

/-- Places that hold roots. -/
inductive RootRow
  | frame (id : FrameId) (row : FrameRow)
  | statics (id : ClassId)
deriving DecidableEq, Repr

namespace World

def sheet (world : World) : Sheet → Marks
  | .collector => world.marks
  | .spare => world.spare

def setSheet (world : World) (sheet : Sheet) (marks : Marks) : World :=
  match sheet with
  | .collector => { world with marks }
  | .spare => { world with spare := marks }

def rootSlots (world : World) : RootRow → List Slot
  | .frame id row => world.frames.row id row
  | .statics id => world.methods.staticSlots id

/-- The places that hold static roots. -/
def staticRows (world : World) : List RootRow := world.methods.loadedClasses.map .statics

/-- The diagnostic text of a heap with its classes and mutators. -/
def renderContext (stats : HeapStats) (classes mutators : Nat) : String :=
  "RuntimeContext \x7b heap: " ++ stats.render ++ ", classes: " ++ toString classes
    ++ ", mutators: " ++ toString mutators ++ " \x7d"

/-- Setting one pair of mark sets leaves the other pairs alone. -/
@[simp] theorem sheet_setSheet (world : World) (sheet other : Sheet) (marks : Marks) :
    (world.setSheet sheet marks).sheet other =
      if other = sheet then marks else world.sheet other := by
  cases sheet <;> cases other <;> rfl

@[simp] theorem setSheet_sheet (world : World) (sheet : Sheet) :
    world.setSheet sheet (world.sheet sheet) = world := by
  cases sheet <;> rfl

@[simp] theorem setSheet_setSheet (world : World) (sheet : Sheet) (marks marks' : Marks) :
    (world.setSheet sheet marks).setSheet sheet marks' = world.setSheet sheet marks' := by
  cases sheet <;> rfl

/-- Marks are kept apart from the heap. -/
@[simp] theorem heap_setSheet (world : World) (sheet : Sheet) (marks : Marks) :
    (world.setSheet sheet marks).heap = world.heap := by
  cases sheet <;> rfl

@[simp] theorem rootSlots_setSheet (world : World) (sheet : Sheet) (marks : Marks)
    (row : RootRow) : (world.setSheet sheet marks).rootSlots row = world.rootSlots row := by
  cases sheet <;> cases row <;> rfl

@[simp] theorem staticRows_setSheet (world : World) (sheet : Sheet) (marks : Marks) :
    (world.setSheet sheet marks).staticRows = world.staticRows := by
  cases sheet <;> rfl

end World

end MarkSweep
