import MarkSweep.Pool.State

namespace MarkSweep

/-- What a task asks of its own pool. -/
inductive Request (β : Type)
  /-- To queue a task that answers to nobody. -/
  | execute (body : β) (owners : Nat)
  /-- To queue a task that answers to a new handle. -/
  | submit (body : β) (owners : Nat)
  /-- To queue a task as a member of a group. -/
  | spawnMember (group : GroupId) (body : β) (owners : Nat)
  /-- To set the work flag and to wake every worker. -/
  | signalWork
  /-- To clear the work flag. -/
  | signalWait
  /-- To stop accepting tasks and to wait for all other workers that nobody has begun to join. -/
  | finalize

/-- What the pool answers to a request. -/
inductive Reply
  | done
  /-- A task was not accepted because the pool is shut down. -/
  | refused
  /-- A task answers to this handle, which has heard if it was not accepted. -/
  | handle (id : HandleId)
deriving DecidableEq, Repr

/-- What a task body does in one step. -/
inductive Move (β ε ρ : Type)
  /-- It changes the environment and goes on. -/
  | next (env : ε) (rest : β)
  /-- It has to wait until the environment changes. -/
  | wait
  /-- It becomes another owner of the pool if there still is one, and goes on according to whether
  there was. -/
  | adopt (rest : Bool → β)
  /-- It gives up an owner of the pool and goes on. -/
  | giveUp (rest : β)
  /-- It asks something of the pool and goes on according to the reply. -/
  | ask (request : Request β) (rest : Reply → β)
  | finish (env : ε) (outcome : Outcome ρ)

/-- How the tasks of a pool behave. -/
structure Body (β ε ρ : Type) where
  /-- The next step of a body on the worker of this name. -/
  step : (worker : String) → Thread → ε → β → Move β ε ρ

/-- Bodies that compute and end, and neither wait nor ask anything of their pool. -/
def Body.IsPlain (B : Body β ε ρ) : Prop :=
  ∀ name thread env body,
    (∃ env' rest, B.step name thread env body = .next env' rest) ∨
      ∃ env' outcome, B.step name thread env body = .finish env' outcome

/-- A pool and the environment of its tasks. -/
structure Worksite (β ε ρ : Type) where
  pool : Pool β ρ
  /-- What the tasks share. -/
  env : ε

namespace Pool

variable {β ρ : Type}

/-- A worker looks at the queue. -/
def look (pool : Pool β ρ) (i : Nat) (worker : Worker β) (draining : Bool) : Pool β ρ :=
  match if pool.workEnabled || draining then pool.queue.pop? else none with
  | some (task, queue) => { pool with queue }.setStage i worker (.running task)
  | none =>
    if pool.shutDown then (pool.setStage i worker .exited).collapse
    else pool.setStage i worker .parked

/-- A task ends on a worker. A handle hears of it at once, a group hears of a fault before the
member gives up its place, and a fault that nobody hears of ends the worker. -/
def conclude (pool : Pool β ρ) (i : Nat) (worker : Worker β) (audience : Audience)
    (outcome : Outcome ρ) : Pool β ρ :=
  match audience, outcome with
  | .nobody, .value _ => pool.setStage i worker (.awake true)
  | .nobody, .fault _ => (pool.setStage i worker .dead).collapse
  | .handle id, outcome =>
    { pool with board := pool.board.tell id (.delivered outcome) }.setStage i worker (.awake true)
  | .group id, .value _ => pool.setStage i worker (.leaving id)
  | .group id, .fault payload =>
    { pool with board := pool.board.recordFault id payload.message }.setStage i worker
      (.leaving id)

/-- A task on a worker becomes another owner of the pool if there still is one. -/
def adoptFrom (pool : Pool β ρ) (i : Nat) (worker : Worker β) (task : Task β) (rest : Bool → β) :
    Pool β ρ :=
  if pool.owners = 0 then pool.setStage i worker (.running { task with body := rest false })
  else
    { pool with owners := pool.owners + 1 }.setStage i worker
      (.running { task with body := rest true })

/-- A task on a worker gives up an owner; whoever gives up the last one closes the pool. -/
def giveUpFrom (pool : Pool β ρ) (i : Nat) (worker : Worker β) (task : Task β) : Pool β ρ :=
  let pool := { pool with owners := pool.owners - 1 }
  if pool.owners = 0 then pool.setStage i worker (.closing true .begun task)
  else pool.setStage i worker (.running task)

/-- A task on a worker queues another one, and goes on as one task or another according to whether
the pool accepted it. -/
def enqueueFrom (pool : Pool β ρ) (i : Nat) (worker : Worker β) (queued accepted refused : Task β) :
    Pool β ρ :=
  match pool.offer? queued with
  | some pool =>
    if pool.workEnabled then pool.setStage i worker (.signalling accepted)
    else pool.setStage i worker (.running accepted)
  | none =>
    { pool with board := pool.board.refuse queued.audience }.setStage i worker (.running refused)

/-- A task on a worker asks something of the pool. -/
def askFrom (pool : Pool β ρ) (i : Nat) (worker : Worker β) (task : Task β) (rest : Reply → β) :
    Request β → Pool β ρ
  | .execute body owners =>
    pool.enqueueFrom i worker ⟨.nobody, body, owners⟩ { task with body := rest .done }
      { task with body := rest .refused }
  | .submit body owners =>
    let (id, board) := pool.board.openHandle
    { pool with board }.enqueueFrom i worker ⟨.handle id, body, owners⟩
      { task with body := rest (.handle id) } { task with body := rest (.handle id) }
  | .spawnMember group body owners =>
    pool.enqueueFrom i worker ⟨.group group, body, owners⟩ { task with body := rest .done }
      { task with body := rest .refused }
  | .signalWork =>
    pool.enableWork.setStage i worker (.announcing { task with body := rest .done })
  | .signalWait => pool.disableWork.setStage i worker (.running { task with body := rest .done })
  | .finalize => pool.setStage i worker (.closing false .begun { task with body := rest .done })

/-- A task on a worker goes on after the pool was closed; if it was the last owner, the pool is
released. -/
def resumeFrom (pool : Pool β ρ) (i : Nat) (worker : Worker β) (last : Bool) (task : Task β) :
    Pool β ρ :=
  if last then (pool.setStage i worker (.running task)).release
  else pool.setStage i worker (.running task)

/-- A worker goes on closing the pool. It joins every other worker but cannot join itself. -/
def closeFrom (pool : Pool β ρ) (i : Nat) (worker : Worker β) (last : Bool) (task : Task β) :
    Closing → Option (Pool β ρ)
  | .begun => some (pool.beginShutdown.setStage i worker (.closing last .flagged task))
  | .flagged => some (pool.wakeAll.setStage i worker (.closing last .announced task))
  | .announced =>
    match pool.takeWorkers with
    | ([], pool) => some (pool.resumeFrom i worker last task)
    | (left, pool) => some (pool.setStage i worker (.closing last (.joining left) task))
  | .joining [] =>
    let worker := { worker with thread := worker.thread.report (.event (.poolFinalized pool.name)) }
    some (pool.resumeFrom i worker last task)
  | .joining (j :: left) =>
    if j = i ∨ pool.isOver j then
      some (pool.setStage i worker (.closing last (.joining left) task))
    else
      none

end Pool

namespace Worksite

variable {β ε ρ : Type}

/-- One step of a worker, if it can take one. The environment decides whom it wakes. -/
def workerStep (B : Body β ε ρ) (choice : Choice) (i : Nat) (s : Worksite β ε ρ) :
    Option (Worksite β ε ρ) :=
  match s.pool.workers[i]? with
  | none => none
  | some worker =>
    match worker.stage with
    | .awake draining => some { s with pool := s.pool.look i worker draining }
    | .running task =>
      match B.step (s.pool.workerName i) worker.thread s.env task.body with
      | .next env rest =>
        some ⟨s.pool.setStage i worker (.running { task with body := rest }), env⟩
      | .wait => none
      | .adopt rest => some { s with pool := s.pool.adoptFrom i worker task rest }
      | .giveUp rest =>
        some { s with pool := s.pool.giveUpFrom i worker { task with body := rest } }
      | .ask request rest => some { s with pool := s.pool.askFrom i worker task rest request }
      | .finish env outcome => some ⟨s.pool.conclude i worker task.audience outcome, env⟩
    | .signalling task =>
      some { s with pool := (s.pool.setStage i worker (.running task)).wakeOne choice }
    | .announcing task => some { s with pool := s.pool.wakeAll.setStage i worker (.running task) }
    | .closing last closing task =>
      (s.pool.closeFrom i worker last task closing).map fun pool => { s with pool }
    | .leaving group =>
      let pool := { s.pool with board := s.pool.board.leaveGroup group }
      some { s with pool := pool.setStage i worker (.awake true) }
    | .parked | .exited | .dead => none

end Worksite

end MarkSweep
