import MarkSweep.Cycle.Job
import MarkSweep.Cycle.Mark
import MarkSweep.Pool.Access
import MarkSweep.Pool.Settle

namespace MarkSweep

/-- A world and the pool of its collector. -/
abbrev Machine := Worksite Job World Tally

namespace Machine

variable {α : Type}

/-- A machine with an empty heap and this many registered mutators. -/
def create (config : Config) (threads : Nat) : Machine where
  pool := Pool.create config.workers config.workerName
  env := { config, safepoint := { registry := ⟨threads⟩ } }

/-- A machine with an empty heap, if its workers can be started. -/
def create? (config : Config) (threads : Nat) : Except Fault Machine := do
  let pool ← Pool.create? config.workers config.workerName
  return { create config threads with pool }

/-- Lets the workers go on until none of them can. -/
def settle (machine : Machine) : Machine := Worksite.settle Job.body machine

def onWorld (call : Call World α) : Call Machine α :=
  call.focus (·.env) fun env machine => { machine with env }

def onHeap (call : Call Heap α) : Call Machine α :=
  onWorld (call.focus (·.heap) fun heap world => { world with heap })

def onFrames (call : Call Frames α) : Call Machine α :=
  onWorld (call.focus (·.frames) fun frames world => { world with frames })

def onMethods (call : Call MethodArea α) : Call Machine α :=
  onWorld (call.focus (·.methods) fun methods world => { world with methods })

def onSafepoint (call : Call Safepoint α) : Call Machine α :=
  onWorld (call.focus (·.safepoint) fun safepoint world => { world with safepoint })

def onRegistry (call : Call Registry α) : Call Machine α :=
  onSafepoint (call.focus (·.registry) fun registry safepoint => { safepoint with registry })

def onMarks (sheet : Sheet) (call : Call Marks α) : Call Machine α :=
  onWorld (call.focus (·.sheet sheet) fun marks world => world.setSheet sheet marks)

/-- Marks what some cells reach, on the calling thread. -/
def trace (sheet : Sheet) (cells : List Slot) : Call Machine Nat :=
  onWorld (World.trace sheet cells)

/-- Marks what some cells reach, for each of them on a thread of its own. -/
def traceEach (sheet : Sheet) (cells : List Slot) : Call Machine Nat :=
  onWorld (World.traceEach sheet cells)

/-- The diagnostic text of the heap with the loaded classes and the registered mutators. -/
def renderContext : Call Machine String := do
  let stats ← onHeap Heap.readStats
  onWorld <| .read fun world =>
    World.renderContext stats world.methods.names.length world.safepoint.expected

end Machine

end MarkSweep
