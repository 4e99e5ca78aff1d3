import MarkSweep.Pool.Machine

namespace MarkSweep.Pool

variable {β ε ρ : Type}

def inspect {α : Type} (f : Pool β ρ → α) : Call (Worksite β ε ρ) α := .read fun s => f s.pool

/-- A change of the pool in one step. -/
def change (f : Pool β ρ → Pool β ρ) : Call (Worksite β ε ρ) Unit :=
  .update fun s => { s with pool := f s.pool }

/-- A change of the pool in one step that brings an answer. -/
def exchange {α : Type} (f : Pool β ρ → α × Pool β ρ) : Call (Worksite β ε ρ) α :=
  .atomic fun s => let (a, pool) := f s.pool; (a, { s with pool })

/-- Starts the workers of a new pool, which is the answer. -/
def spawn {S : Type} (workers : Nat) (name : String) : Call S (Pool β ρ) := do
  let pool ← .ofExcept (create? workers name)
  .emit (.poolSpawned name pool.workerCount)
  return pool

def notifyOne : Call (Worksite β ε ρ) Unit :=
  .choose fun choice s => some ((), { s with pool := s.pool.wakeOne choice })

def notifyAll : Call (Worksite β ε ρ) Unit := change wakeAll

/-- Queues a task and then, if the work flag was set, wakes a worker for it. The answer is whether
the pool accepted the task. -/
def enqueue (task : Task β) : Call (Worksite β ε ρ) Bool := do
  let enabled? ← exchange fun pool =>
    match pool.offer? task with
    | some pool => (some pool.workEnabled, pool)
    | none => (none, pool)
  match enabled? with
  | some true => do notifyOne; return true
  | some false => return true
  | none => return false

/-- Queues a task and answers with a handle to its outcome. A refused task is dropped at once,
which its handle reports. -/
def submit (body : β) (owners : Nat) : Call (Worksite β ε ρ) HandleId := do
  let id ← exchange fun pool =>
    let (id, board) := pool.board.openHandle
    (id, { pool with board })
  unless ← enqueue ⟨.handle id, body, owners⟩ do
    change fun pool => { pool with board := pool.board.tell id .lost }
  return id

/-- Queues a task that answers to nobody. -/
def execute (body : β) (owners : Nat) : Call (Worksite β ε ρ) (Except Failure Unit) := do
  if ← enqueue ⟨.nobody, body, owners⟩ then return .ok () else return .error .poolShutDown

def newGroup : Call (Worksite β ε ρ) GroupId :=
  exchange fun pool =>
    let (id, board) := pool.board.openGroup
    (id, { pool with board })

/-- Queues a task as a member of a group. -/
def spawnMember (group : GroupId) (body : β) (owners : Nat) :
    Call (Worksite β ε ρ) (Except Failure Unit) := do
  if ← enqueue ⟨.group group, body, owners⟩ then return .ok () else return .error .poolShutDown

/-- Sets the work flag and wakes every worker. -/
def signalWork : Call (Worksite β ε ρ) Unit := do
  change enableWork
  notifyAll

/-- Clears the work flag. Workers that are draining go on until the queue is empty. -/
def signalWait : Call (Worksite β ε ρ) Unit := change disableWork

/-- Waits until a worker is over. -/
def joinWorker (i : Nat) : Call (Worksite β ε ρ) Unit :=
  .await fun s => if s.pool.isOver i then some ((), s) else none

/-- Stops accepting tasks, lets the workers run what is queued and joins them. Workers that
another call has begun to join are left to that call. -/
def finalize : Call (Worksite β ε ρ) Unit := do
  change beginShutdown
  notifyAll
  let left ← exchange takeWorkers
  unless left.isEmpty do
    left.forM joinWorker
    let name ← inspect (·.name)
    .emit (.poolFinalized name)

/-- Gives up an owner of the pool; whoever gives up the last one closes it. -/
def dropOwner : Call (Worksite β ε ρ) Unit := do
  let last ← exchange fun pool =>
    (pool.owners == 1, { pool with owners := pool.owners - 1 })
  if last then
    finalize
    change release

/-- Waits until the task of a handle has ended or was dropped, and consumes the handle. -/
def awaitHandle (id : HandleId) : Call (Worksite β ε ρ) (Option (Outcome ρ)) :=
  .await fun s =>
    let consumed := { s with pool := { s.pool with board := s.pool.board.dropHandle id } }
    match s.pool.board.handles[id]? with
    | some (.delivered outcome) => some (some outcome, consumed)
    | some .lost => some (none, consumed)
    | some .awaited | none => none

/-- Waits for a task; a fault of the task or of the pool is an answer. -/
def tryJoin (id : HandleId) : Call (Worksite β ε ρ) (Except Failure ρ) := do
  match ← awaitHandle id with
  | some (.value result) => return .ok result
  | some (.fault payload) => return .error (.taskFaulted payload.message)
  | none => return .error .poolShutDown

/-- Waits for a task; a fault of the task is raised again, and a dropped task is a fault. -/
def join (id : HandleId) : Call (Worksite β ε ρ) ρ := do
  match ← awaitHandle id with
  | some (.value result) => return result
  | some (.fault payload) => .fault (.reraised payload)
  | none => .fault (.failed .poolShutDown)

/-- Waits until no member of a group is queued or running, and consumes the group. The first
message that a member recorded is the answer. -/
def waitGroup (id : GroupId) : Call (Worksite β ε ρ) (Except Failure Unit) :=
  .await fun s =>
    match s.pool.board.groups[id]? with
    | some group =>
      if group.pending = 0 then
        some
          (match group.faults with
            | message :: _ => .error (.taskFaulted message)
            | [] => .ok (),
            { s with pool := { s.pool with board := s.pool.board.dropGroup id } })
      else
        none
    | none => none

def isFinished (pool : Pool β ρ) (id : HandleId) : Bool :=
  match pool.board.handles[id]? with
  | some (.delivered _) => true
  | _ => false

def renderHandle (pool : Pool β ρ) (id : HandleId) : String :=
  "TaskHandle \x7b finished: " ++ toString (pool.isFinished id) ++ " \x7d"

/-- Consumes a handle without waiting for its task. -/
def detach (id : HandleId) : Call (Worksite β ε ρ) Unit :=
  change fun pool => { pool with board := pool.board.dropHandle id }

/-- Consumes a group without waiting for its members. -/
def abandonGroup (id : GroupId) : Call (Worksite β ε ρ) Unit :=
  change fun pool => { pool with board := pool.board.dropGroup id }

end MarkSweep.Pool
