import MarkSweep.Cycle.Machine

namespace MarkSweep

/-- What a scan of the roots went through. -/
structure RootScan where
  frames : Nat
  staticSlots : Nat
deriving DecidableEq, Repr

/-- What a sweep of all containers erased. -/
structure SweepStats where
  objects : Nat
  arrays : Nat
  elements : Nat
  monitors : Nat
deriving DecidableEq, Repr

namespace Machine

/-- Queues the marking jobs of frames as members of a group, and stops at the first refusal. -/
def spawnFrames (sheet : Sheet) (group : GroupId) :
    List FrameId → Call Machine (Except Failure Unit)
  | [] => return .ok ()
  | frame :: frames => do
    match ← Pool.spawnMember group (Job.markRow sheet frame .operands) 0 with
    | .error failure => return .error failure
    | .ok () =>
      match ← Pool.spawnMember group (Job.markRow sheet frame .locals) 0 with
      | .error failure => return .error failure
      | .ok () => spawnFrames sheet group frames

/-- Marks what the frames of the stacks and the static fields reach. Where the pool refuses a
frame's job, the jobs queued before it are left to themselves. -/
def scan (sheet : Sheet) (callStacks : List CallStack) :
    Call Machine (Except Failure RootScan) := do
  let group ← Pool.newGroup
  match ← spawnFrames sheet group callStacks.flatten with
  | .error failure => do
    Pool.abandonGroup group
    return .error failure
  | .ok () =>
    let statics ← Pool.submit (.markStatics sheet) 0
    let statics ← Pool.tryJoin statics
    let frames ← Pool.waitGroup group
    return do
      let tally ← statics
      frames
      return ⟨callStacks.flatten.length, tally.entries⟩

/-- Sweeps the three containers. The failure of an earlier container is reported first, and every
job has ended by then. -/
def sweep (live : LiveSet) : Call Machine (Except Failure SweepStats) := do
  let objects ← Pool.submit (.sweep .objects live) 0
  let arrays ← Pool.submit (.sweep .arrays live) 0
  let monitors ← Pool.submit (.sweep .monitors live) 0
  let objects ← Pool.tryJoin objects
  let arrays ← Pool.tryJoin arrays
  let monitors ← Pool.tryJoin monitors
  return do
    let objects ← objects
    let arrays ← arrays
    let monitors ← monitors
    return ⟨objects.entries, arrays.entries, arrays.elements, monitors.entries⟩

end Machine

end MarkSweep
