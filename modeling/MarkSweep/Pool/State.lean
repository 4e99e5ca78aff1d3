import MarkSweep.Pool.Board
import MarkSweep.Pool.Fifo
import MarkSweep.Text.Quoted
import MarkSweep.Thread

namespace MarkSweep

/-- A unit of work. -/
structure Task (β : Type) where
  /-- Who hears of its end. -/
  audience : Audience
  body : β
  /-- How many owners of the pool it holds from the moment it is made. -/
  owners : Nat := 0

/-- How far a worker has closed its own pool. -/
inductive Closing
  /-- Nothing was done yet. -/
  | begun
  /-- Both flags are set. -/
  | flagged
  /-- Every parked worker was woken. -/
  | announced
  /-- These workers are still to be joined. -/
  | joining (left : List Nat)
deriving DecidableEq, Repr

/-- What a worker is doing. -/
inductive Stage (β : Type)
  /-- It is about to look at the queue. -/
  | awake (draining : Bool)
  /-- It runs a task. -/
  | running (task : Task β)
  /-- Its task has queued another one and has still to wake a worker for it. -/
  | signalling (task : Task β)
  /-- Its task has set the work flag and has still to wake every worker. -/
  | announcing (task : Task β)
  /-- Its task has to close the pool before it goes on, either because it gave up the last owner or
  because it wants the pool closed. -/
  | closing (last : Bool) (closing : Closing) (task : Task β)
  /-- Its task has ended and still occupies its place in a group. -/
  | leaving (group : GroupId)
  /-- It waits to be woken. -/
  | parked
  /-- It ended after the pool was shut down. -/
  | exited
  /-- A fault ended it. -/
  | dead

/-- Whether a worker with this stage will never do anything again. -/
def Stage.isOver {β : Type} : Stage β → Bool
  | exited | dead => true
  | _ => false

/-- Whether a worker waits to be woken. -/
def Stage.isParked {β : Type} : Stage β → Bool
  | parked => true
  | _ => false

/-- A worker thread. -/
structure Worker (β : Type) where
  stage : Stage β := .awake false
  thread : Thread := {}

/-- A worker after a wake-up: a parked one will look at the queue, the others do not notice. -/
def Worker.woken {β : Type} (worker : Worker β) : Worker β :=
  if worker.stage.isParked then { worker with stage := .awake false } else worker

/-- The shared part of a pool together with its workers.

A worker that looks at the queue takes the foremost task if the work flag is set or if it is
draining, that is, if it has run a task since it last found nothing to take. Otherwise it parks
until it is woken, or ends if the pool is shut down. -/
structure Pool (β ρ : Type) where
  name : String
  /-- The tasks that no worker has taken yet. -/
  queue : Fifo (Task β) := {}
  /-- Whether a worker that is not draining may take a task. -/
  workEnabled : Bool := false
  /-- Whether the pool no longer accepts tasks. -/
  shutDown : Bool := false
  workers : List (Worker β)
  /-- The workers that nobody has begun to join. -/
  unjoined : List Nat
  /-- How many owners keep the pool. -/
  owners : Nat := 1
  /-- Whether the last owner is gone and has finished closing the pool. -/
  released : Bool := false
  board : Board ρ := {}

namespace Pool

variable {β ρ : Type}

/-- How many workers a pool gets that was asked for `count`. -/
def clampWorkers (count : Nat) : Nat := max count 1

/-- The name of a worker of a pool of this name. -/
def nameWorker (pool : String) (i : Nat) : String := pool ++ "-" ++ toString i

/-- A pool whose workers have just started. -/
def create (workers : Nat) (name : String) : Pool β ρ :=
  { name
    workers := List.replicate (clampWorkers workers) {}
    unjoined := List.range (clampWorkers workers) }

/-- The bytes of what a pool keeps to join a worker. -/
def joinBytes : Nat := 24

/-- A pool whose workers have just started, if they can be. What joins them is stored in one piece,
and their names differ in their numbers only, so that the first of them shows whether they can be
started. -/
def create? (workers : Nat) (name : String) : Except Fault (Pool β ρ) := do
  checkCapacity (clampWorkers workers) joinBytes
  checkThreadName (nameWorker name 0)
  return create workers name

def workerCount (pool : Pool β ρ) : Nat := pool.workers.length

def queued (pool : Pool β ρ) : Nat := pool.queue.size

def render (pool : Pool β ρ) : String :=
  "WorkerPool \x7b name: " ++ Text.quote pool.name ++ ", worker_count: "
    ++ toString pool.workerCount ++ ", queued: " ++ toString pool.queued ++ ", work_enabled: "
    ++ toString pool.workEnabled ++ " \x7d"

def workerName (pool : Pool β ρ) (i : Nat) : String := nameWorker pool.name i

/-- Whether a worker will never do anything again. -/
def isOver (pool : Pool β ρ) (i : Nat) : Bool :=
  match pool.workers[i]? with
  | some worker => worker.stage.isOver
  | none => true

def setStage (pool : Pool β ρ) (i : Nat) (worker : Worker β) (stage : Stage β) : Pool β ρ :=
  { pool with workers := pool.workers.set i { worker with stage } }

/-- Queues a task behind all others, unless the pool is shut down. -/
def offer? (pool : Pool β ρ) (task : Task β) : Option (Pool β ρ) :=
  if pool.shutDown then none
  else
    some
      { pool with
        queue := pool.queue.push task
        owners := pool.owners + task.owners
        board := pool.board.enlist task.audience }

def enableWork (pool : Pool β ρ) : Pool β ρ := { pool with workEnabled := true }

def disableWork (pool : Pool β ρ) : Pool β ρ := { pool with workEnabled := false }

def beginShutdown (pool : Pool β ρ) : Pool β ρ :=
  { pool with workEnabled := true, shutDown := true }

def wakeAll (pool : Pool β ρ) : Pool β ρ :=
  { pool with workers := pool.workers.map Worker.woken }

/-- The workers that wait to be woken. -/
def parkedWorkers (pool : Pool β ρ) : List Nat :=
  (List.range pool.workers.length).filter fun i =>
    match pool.workers[i]? with
    | some worker => worker.stage.isParked
    | none => false

/-- Wakes one parked worker, if there is one; the environment decides which. -/
def wakeOne (pool : Pool β ρ) (choice : Choice) : Pool β ρ :=
  let parked := pool.parkedWorkers
  match parked[choice % parked.length]? with
  | some i => { pool with workers := pool.workers.modify i Worker.woken }
  | none => pool

/-- Takes the workers that nobody has begun to join. -/
def takeWorkers (pool : Pool β ρ) : List Nat × Pool β ρ :=
  (pool.unjoined, { pool with unjoined := [] })

/-- Drops the queued tasks if nothing can take or add any: the last owner has closed the pool and
every worker is over. -/
def collapse (pool : Pool β ρ) : Pool β ρ :=
  if pool.released && pool.workers.all (·.stage.isOver) then
    { pool with
      queue := .empty
      board := pool.queue.toList.foldl (fun board task => board.dismiss task.audience) pool.board }
  else
    pool

/-- The last owner has finished closing the pool. -/
def release (pool : Pool β ρ) : Pool β ρ := { pool with released := true }.collapse

end Pool

end MarkSweep
