import MarkSweep.Duration
import MarkSweep.Fault

namespace MarkSweep

/-- What one collection found and did. -/
structure Metrics where
  objectsMarked : Nat := 0
  arraysMarked : Nat := 0
  objectsReclaimed : Nat := 0
  arraysReclaimed : Nat := 0
  elementsReleased : Nat := 0
  monitorsReclaimed : Nat := 0
  framesScanned : Nat := 0
  /-- Collections of this collector so far, this one included. -/
  totalCollections : Nat := 0
deriving DecidableEq, Repr

namespace Metrics

def valuesReclaimed (metrics : Metrics) : Except Fault Nat :=
  addCounts metrics.objectsReclaimed metrics.arraysReclaimed

def valuesSurviving (metrics : Metrics) : Except Fault Nat :=
  addCounts metrics.objectsMarked metrics.arraysMarked

end Metrics

/-- A stopwatch for the two phases of a collection. -/
structure PhaseTimer where
  mark : Duration := .zero
  sweep : Duration := .zero
  /-- The clock reading at which the phase under way began. -/
  started : Option Duration := none
deriving DecidableEq

namespace PhaseTimer

def start (timer : PhaseTimer) (now : Duration) : PhaseTimer := { timer with started := some now }

/-- The time from one reading of the clock to another. -/
def elapsed (started now : Duration) : Duration :=
  ⟨now.nanos - started.nanos, Nat.lt_of_le_of_lt (Nat.sub_le _ _) now.nanos_lt⟩

/-- Ends the mark phase, if a phase is under way. -/
def endMark (timer : PhaseTimer) (now : Duration) : PhaseTimer :=
  match timer.started with
  | some started => { timer with mark := elapsed started now, started := none }
  | none => timer

/-- Ends the sweep phase, if a phase is under way. -/
def endSweep (timer : PhaseTimer) (now : Duration) : PhaseTimer :=
  match timer.started with
  | some started => { timer with sweep := elapsed started now, started := none }
  | none => timer

def total (timer : PhaseTimer) : Except Fault Duration :=
  match timer.mark.add? timer.sweep with
  | some sum => .ok sum
  | none => .error .durationOverflow

end PhaseTimer

end MarkSweep
