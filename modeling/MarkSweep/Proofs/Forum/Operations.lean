import MarkSweep.Cycle.Collect
import MarkSweep.Proofs.Company.Tidy
import MarkSweep.Proofs.Mutator.Deposits

namespace MarkSweep

/-- What a thread does with a monitor that the heap has found for it. -/
structure Heap.Use (ω : Type) where
  run : Monitor → Except Fault ω × Monitor
  /-- It takes no lock, so that none of its faults is about locks. -/
  lockless : ∀ monitor fault, (run monitor).1 = .error fault → ¬fault.IsDisorder

namespace Forum

variable {ω α : Type}

/-- A call on the heap, on a root row, on a pair of mark sets or on the collector. -/
inductive Operation (ω : Type)
  /-- Stores an object or an array, at an offset of the caller's choice or of the counter's. -/
  | store (deposit : Heap.Deposit)
  | insertMonitor (offset : Offset) (monitor : Monitor)
  | writeField (offset : Offset) (index : Nat) (value : Slot)
  | writeElement (offset : Offset) (index : Nat) (value : Slot)
  | readFields (offset : Offset)
  | readElements (offset : Offset)
  | hasEntry (ref : Ref)
  | hasMonitor (offset : Offset)
  | useMonitor (offset : Offset) (use : Heap.Use ω)
  | readStats
  /-- Sweeps one container on the calling thread. -/
  | sweepRegion (live : LiveSet) (region : Region)
  /-- Makes a frame of null cells on top of a stack. -/
  | pushFrame (stack : CallStack) (operands locals : Nat)
  | writeRow (id : FrameId) (row : FrameRow) (index : Nat) (value : Slot)
  | readRow (id : FrameId) (row : FrameRow)
  | loadClass (info : ClassInfo)
  | writeStatic (id : ClassId) (key : Nat) (value : Slot)
  | readStatics (id : ClassId)
  | mark (sheet : Sheet) (ref : Ref)
  | isMarked (sheet : Sheet) (ref : Ref)
  | countMarks (sheet : Sheet) (kind : EntryKind)
  | clearKind (sheet : Sheet) (kind : EntryKind)
  | clearMarks (sheet : Sheet)
  | freezeMarks (sheet : Sheet)
  /-- Marks what some cells reach. -/
  | trace (sheet : Sheet) (cells : List Slot)
  /-- Marks what the roots reach, on the pool. -/
  | scan (sheet : Sheet) (callStacks : List CallStack)
  /-- Sweeps the three containers, on the pool. -/
  | sweep (live : LiveSet)
  | signalWork
  | signalWait
  | requestCollection
  | isCollectionRequested
  | notifyAllocation
  | collectStacks (callStacks : List CallStack) (policy : Policy)
  | lastMetrics
  | totalCollections
  | shutdown

/-- What a call answers. -/
inductive Response (ω : Type)
  | done
  | flag (value : Bool)
  | count (value : Nat)
  | ref (value : Ref)
  | cells (value : List Slot)
  | fields (value : Option (List Slot))
  | elements (value : Option (Nat × List Slot))
  | used (value : Option ω)
  | stats (value : HeapStats)
  | tally (value : Tally)
  | live (value : LiveSet)
  | pushed (value : Except Fault FrameId × CallStack)
  | loaded (value : ClassId)
  | scanned (value : Except Failure RootScan)
  | swept (value : Except Failure SweepStats)
  | metrics (value : Option Metrics)

/-- A call whose value is given as a response. -/
def answering (respond : α → Response ω) (call : Call Machine α) : Call Machine (Response ω) := do
  return respond (← call)

namespace Operation

open Machine

/-- What a thread runs for an operation. -/
def call : Operation ω → Call Machine (Response ω)
  | store deposit => answering .ref (onHeap deposit.call)
  | insertMonitor offset monitor =>
    answering (fun _ => .done) (onHeap (Heap.insertMonitor offset monitor))
  | writeField offset index value => answering .flag (onHeap (Heap.writeField offset index value))
  | writeElement offset index value =>
    answering .flag (onHeap (Heap.writeElement offset index value))
  | readFields offset => answering .fields (onHeap (Heap.readFields offset))
  | readElements offset => answering .elements (onHeap (Heap.readElements offset))
  | hasEntry ref => answering .flag (onHeap (Heap.hasEntry ref))
  | hasMonitor offset => answering .flag (onHeap (Heap.hasMonitor offset))
  | useMonitor offset use => answering .used (onHeap (Heap.useMonitor offset use.run))
  | readStats => answering .stats (onHeap Heap.readStats)
  | sweepRegion live region => answering .tally (onHeap (Heap.sweep live region))
  | pushFrame stack operands locals =>
    answering .pushed (onFrames (.atomic fun frames => frames.push stack operands locals))
  | writeRow id row index value =>
    answering .flag (onFrames (Frames.writeRow id row index value))
  | readRow id row => answering .cells (onFrames (Frames.readRow id row))
  | loadClass info => answering .loaded (onMethods (.atomic (·.load info)))
  | writeStatic id key value =>
    answering (fun _ => .done) (onMethods (MethodArea.writeStatic id key value))
  | readStatics id => answering .cells (onMethods (MethodArea.readStatics id))
  | mark sheet ref => answering .flag (onMarks sheet (Marks.mark ref))
  | isMarked sheet ref => answering .flag (onMarks sheet (Marks.isMarked ref))
  | countMarks sheet kind => answering .count (onMarks sheet (Marks.countKind kind))
  | clearKind sheet kind => answering (fun _ => .done) (onMarks sheet (Marks.clearKind kind))
  | clearMarks sheet => answering (fun _ => .done) (onMarks sheet Marks.clear)
  | freezeMarks sheet => answering .live (onMarks sheet Marks.freeze)
  | trace sheet cells => answering .count (Machine.trace sheet cells)
  | scan sheet callStacks => answering .scanned (Machine.scan sheet callStacks)
  | sweep live => answering .swept (Machine.sweep live)
  | signalWork => answering (fun _ => .done) Pool.signalWork
  | signalWait => answering (fun _ => .done) Pool.signalWait
  | requestCollection => answering (fun _ => .done) Machine.requestCollection
  | isCollectionRequested => answering .flag Machine.isCollectionRequested
  | notifyAllocation => answering .flag Machine.notifyAllocation
  | collectStacks callStacks policy =>
    answering .metrics (Machine.collectStacks callStacks policy)
  | lastMetrics => answering .metrics Machine.lastMetrics
  | totalCollections => answering .count Machine.totalCollections
  | shutdown => answering (fun _ => .done) Machine.shutdown

end Operation

/-- Who takes the next step, and how the environment decides about it. -/
inductive Turn (ω : Type)
  /-- A thread makes a call. -/
  | call (operation : Operation ω) (caller : Thread)
  /-- A call that was made goes on. -/
  | go (i : Nat) (choice : Choice)
  /-- A worker goes on. -/
  | work (i : Nat) (choice : Choice)
  /-- A worker that is parked wakes up although nobody woke it. -/
  | rouse (i : Nat)

end Forum

/-- A machine, and the calls that were ever made on it. -/
structure Forum (ω : Type) where
  machine : Machine
  visits : List (Visit (Forum.Operation ω) Machine (Forum.Response ω)) := []

namespace Forum

variable {ω : Type}

/-- What comes of a turn, if it can be taken. -/
def next? (forum : Forum ω) : Turn ω → Option (Forum ω)
  | .call operation caller =>
    some { forum with visits := forum.visits ++ [⟨operation, caller, caller, operation.call⟩] }
  | .go i choice =>
    forum.visits[i]?.bind fun visit =>
      (visit.next? choice forum.machine).map fun (visit, machine) =>
        { machine, visits := forum.visits.set i visit }
  | .work i choice =>
    (Worksite.workerStep Job.body choice i forum.machine).map fun machine =>
      { forum with machine }
  | .rouse i =>
    some { forum with
      machine.pool.workers := forum.machine.pool.workers.modify i Worker.woken }

/-- Lets everybody take these turns, one after another. -/
def run (forum : Forum ω) : List (Turn ω) → Option (Forum ω)
  | [] => some forum
  | turn :: turns => (forum.next? turn).bind (run · turns)

end Forum

end MarkSweep
