import MarkSweep.Cycle.Scan

namespace MarkSweep.Machine

variable {α : Type}

/-- One access to what the cycle lock protects, for which the lock has to be free. -/
def onCycle (f : CycleState → α × CycleState) : Call Machine α :=
  .guarded .cycle <| .await fun machine =>
    if machine.env.cycle.busy then none
    else
      let (a, cycle) := f machine.env.cycle
      some (a, { machine with env := { machine.env with cycle } })

/-- Runs `body` with the cycle lock held. -/
def withCycleLock (body : Call Machine α) : Call Machine α :=
  .guarded .cycle do
    .await fun machine =>
      if machine.env.cycle.busy then none
      else
        some
          ((),
            { machine with
              env := { machine.env with cycle := { machine.env.cycle with busy := true } } })
    body.andFinally <| .update fun machine =>
      { machine with
        env := { machine.env with cycle := { machine.env.cycle with busy := false } } }

/-- A look at what the cycle lock protects, by the thread that holds the lock. -/
def readCycle (f : CycleState → α) : Call Machine α :=
  onWorld <| .read fun world => f world.cycle

/-- Raises the pressure, so that the next offer to collect is taken up. -/
def requestCollection : Call Machine Unit :=
  onCycle fun cycle => ((), { cycle with pressure := true })

def isCollectionRequested : Call Machine Bool := onCycle fun cycle => (cycle.pressure, cycle)

def lastMetrics : Call Machine (Option Metrics) := onCycle fun cycle => (cycle.lastMetrics, cycle)

def totalCollections : Call Machine Nat := onCycle fun cycle => (cycle.total, cycle)

/-- Replaces the condition on which an allocation asks for a collection. -/
def setCondition (condition : Condition) : Call Machine Unit :=
  onWorld <| .update ({ · with condition })

/-- Asks for a collection if the condition holds of the heap as it is now. The answer is whether it
does. -/
def notifyAllocation : Call Machine Bool := do
  let condition ← onWorld <| .read (·.condition)
  let stats ← onHeap Heap.readStats
  let triggered ← Call.ofExcept (condition stats)
  if triggered then requestCollection
  return triggered

/-- What a mark phase found. -/
structure MarkResult where
  frames : Nat
  objects : Nat
  arrays : Nat
  live : LiveSet

/-- Marks what the roots reach. The entries of a heap are counted exactly: each of them takes more
than a byte of memory, so that there are fewer than a word can count. -/
def markPhase (callStacks : List CallStack) : Call Machine MarkResult :=
  .inSpan (.phase .mark) do
    let stats ← onHeap Heap.readStats
    .emit (.phaseStart .mark (stats.objects + stats.arrays))
    let scan ← Call.orFault (← scan .collector callStacks)
    let objects ← onMarks .collector (Marks.countKind .object)
    let arrays ← onMarks .collector (Marks.countKind .array)
    let live ← onMarks .collector Marks.freeze
    .emit (.markEnd objects arrays scan.frames)
    return ⟨scan.frames, objects, arrays, live⟩

/-- Erases what a mark phase did not find. -/
def sweepPhase (found : MarkResult) : Call Machine SweepStats :=
  .inSpan (.phase .sweep) do
    .emit (.phaseStart .sweep (found.objects + found.arrays))
    let swept ← Call.orFault (← sweep found.live)
    .emit (.sweepEnd swept.objects swept.arrays swept.monitors)
    return swept

/-- Puts the collector back to rest. -/
def rest : Call Machine Unit := do
  onMarks .collector Marks.clear
  Pool.signalWait

/-- Both phases, from empty mark sets and with the workers at work. The metrics do not count this
collection among those so far. -/
def runPhases (callStacks : List CallStack) : Call Machine Metrics := do
  onMarks .collector Marks.clear
  Pool.signalWork
  let found ← markPhase callStacks
  let swept ← sweepPhase found
  return {
    objectsMarked := found.objects
    arraysMarked := found.arrays
    objectsReclaimed := swept.objects
    arraysReclaimed := swept.arrays
    elementsReleased := swept.elements
    monitorsReclaimed := swept.monitors
    framesScanned := found.frames }

/-- One whole collection, after which the collector is at rest. -/
def runCycle (callStacks : List CallStack) (policy : Policy) : Call Machine Metrics :=
  .inSpan (.collection policy) ((runPhases callStacks).andFinally rest)

/-- Collects what the frames of the stacks and the static fields do not reach, if a collection was
asked for and the pool is not shut down.

It holds the cycle lock from beginning to end. A collection that succeeds clears the pressure and is
counted; one that faults leaves the pressure and the counts alone. On both exits the mark sets are
emptied and the pool goes back to waiting. -/
def collectStacks (callStacks : List CallStack) (policy : Policy) : Call Machine (Option Metrics) :=
  withCycleLock do
    if !(← readCycle (·.pressure)) then
      return none
    if ← Pool.inspect (·.shutDown) then
      .emit .collectionAfterShutdown
      return none
    let metrics ← runCycle callStacks policy
    onWorld <| .atomic fun world =>
      let total := world.cycle.total + 1
      let metrics := { metrics with totalCollections := total }
      (some metrics,
        { world with
          cycle := { world.cycle with pressure := false, total, lastMetrics := some metrics } })

/-- Stops the pool for good, after a collection that is under way. -/
def shutdown : Call Machine Unit := withCycleLock Pool.finalize

/-- Replaces the collector by a new one on the same heap, roots and mutators. -/
def replaceCollector (config : Config) : Call Machine Unit := do
  let pool ← Pool.spawn config.workers config.workerName
  Pool.finalize
  .update fun machine =>
    { pool
      env :=
        { machine.env with
          config
          marks := {}
          cycle := {}
          condition := standardCondition
          safepoint := { machine.env.safepoint with barrier := {} } } }

def render (machine : Machine) : String :=
  "Collector \x7b config: " ++ machine.env.config.render ++ ", pool: " ++ machine.pool.render
    ++ ", safepoint: " ++ machine.env.safepoint.render ++ ", .. \x7d"

end MarkSweep.Machine
