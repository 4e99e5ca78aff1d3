import MarkSweep.Policy

namespace MarkSweep

/-- The two phases of a cycle. -/
inductive Phase
  | mark
  | sweep
deriving DecidableEq, Repr

def Phase.name : Phase → String
  | mark => "Mark"
  | sweep => "Sweep"

/-- A field of a trace record. -/
inductive FieldValue
  | text (value : String)
  | count (value : Nat)
deriving DecidableEq, Repr

/-- How much attention a record asks for. -/
inductive Severity
  | debug
  | warn
deriving DecidableEq, Repr

def Severity.name : Severity → String
  | debug => "DEBUG"
  | warn => "WARN"

/-- A stretch of work that encloses other records. -/
inductive Span
  /-- A collection, which is known by its place in the record and bears no number. -/
  | collection (policy : Policy)
  | phase (phase : Phase)
deriving DecidableEq, Repr

namespace Span

def name : Span → String
  | collection _ => "gc_collect"
  | phase _ => "gc_phase"

def fields : Span → List (String × FieldValue)
  | collection policy => [("policy", .text policy.name)]
  | phase p => [("phase", .text p.name)]

end Span

/-- A single happening. -/
inductive Event
  | poolSpawned (name : String) (workers : Nat)
  | poolFinalized (name : String)
  | unknownPolicy (name : String)
  /-- A collection was asked of a pool that is shut down. -/
  | collectionAfterShutdown
  | phaseStart (phase : Phase) (values : Nat)
  | markEnd (objects arrays frames : Nat)
  | sweepEnd (objects arrays monitors : Nat)
deriving DecidableEq, Repr

namespace Event

/-- The severity of an event: what a caller probably did not intend is a warning. -/
def severity : Event → Severity
  | unknownPolicy _ | collectionAfterShutdown => .warn
  | _ => .debug

def message : Event → String
  | poolSpawned _ _ => "worker_pool_spawned"
  | poolFinalized _ => "worker_pool_finalized"
  | unknownPolicy _ => "unknown gc policy, using mark-and-sweep"
  | collectionAfterShutdown => "collection requested after shutdown"
  | phaseStart _ _ => "phase_start"
  | markEnd _ _ _ | sweepEnd _ _ _ => "phase_end"

def fields : Event → List (String × FieldValue)
  | poolSpawned name workers => [("pool", .text name), ("workers", .count workers)]
  | poolFinalized name => [("pool", .text name)]
  | unknownPolicy name => [("policy", .text name)]
  | collectionAfterShutdown => []
  | phaseStart phase values => [("phase", .text phase.name), ("values_before", .count values)]
  | markEnd objects arrays frames =>
    [("phase", .text Phase.mark.name), ("objects_marked", .count objects),
      ("arrays_marked", .count arrays), ("frames", .count frames)]
  | sweepEnd objects arrays monitors =>
    [("phase", .text Phase.sweep.name), ("objects_reclaimed", .count objects),
      ("arrays_reclaimed", .count arrays), ("monitors_reclaimed", .count monitors)]

end Event

/-- One entry of a thread's trace. -/
inductive Record
  | opened (span : Span)
  | left (span : Span)
  | event (event : Event)
deriving DecidableEq, Repr

/-- The policy that `text` names; an unknown name stands for the standard policy and is warned
about with the text as it was given. -/
def Policy.parseOrStandard (text : String) : Policy × List Event :=
  match Policy.parse text with
  | .ok policy => (policy, [])
  | .error _ => (Policy.standard, [.unknownPolicy text])

end MarkSweep
