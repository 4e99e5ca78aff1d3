import MarkSweep.Proofs.Pool.Plant
import MarkSweep.Proofs.Pool.Shifts

namespace MarkSweep

variable {β ε ρ : Type}

/-- To whom the task answers that keeps a worker: the task that it runs, or the member of a group
that has ended and has not left. -/
def Stage.seat? : Stage β → Option Audience
  | leaving group => some (.group group)
  | stage => stage.audience?

theorem Stage.seat?_of_underway? {stage : Stage β} {task : Task β}
    (hunderway : stage.underway? = some task) : stage.seat? = some task.audience := by
  cases stage <;> cases hunderway <;> rfl

/-- To whom the task answers that a call is about to queue or to drop. -/
def Pool.Standing.seat? : Pool.Standing ρ → Option Audience
  | opened id | refused (some id) => some (.handle id)
  | _ => none

/-- To whom the tasks answer that are queued or running. -/
def Pool.seats (pool : Pool β ρ) : List Audience :=
  pool.queue.toList.map (·.audience) ++ pool.workers.filterMap (·.stage.seat?)

/-- What a step does to the tasks for which somebody may wait. -/
structure Change (ρ : Type) where
  /-- They are no longer queued or running. -/
  left : List Audience := []
  /-- They are queued or running from now on. -/
  entered : List Audience := []
  /-- A call is no longer about to queue or to drop them. -/
  ceded : List Audience := []
  /-- A call is about to queue them. -/
  claimed : List Audience := []
  accepted : List Audience := []
  /-- They were dropped at once because the pool is shut down. -/
  spurned : List Audience := []
  ended : List (Audience × Outcome ρ) := []
  /-- The handles and groups that whoever held them has given up. -/
  consumed : List Audience := []

/-- What the change by a worker of a pool does not do. -/
structure Change.Toils (change : Change ρ) (shutDown : Bool) : Prop where
  ceded : change.ceded = []
  claimed : change.claimed = []
  consumed : change.consumed = []
  spurned : change.spurned = [] ∨ shutDown = true

namespace Board

/-- Whether a new task may answer to an audience: a group must be there. -/
def Has (board : Board ρ) (audience : Audience) : Prop :=
  ∀ id, audience = .group id → (board.groups[id]?).isSome = true

/-- The changes of a board that go with a change of the tasks. -/
inductive Deal (board : Board ρ) : Change ρ → Board ρ → Prop
  | still : Deal board {} board
  /-- A task without a handle is accepted. -/
  | accept {audience : Audience} (hanonymous : ∀ id, audience ≠ .handle id)
      (hhas : board.Has audience) :
      Deal board { entered := [audience], accepted := [audience] } (board.enlist audience)
  /-- A call makes a handle for its task. -/
  | claim : Deal board { claimed := [.handle board.nextHandle] } board.openHandle.2
  /-- The task that a call has made a handle for is accepted. -/
  | enroll (id : HandleId) :
      Deal board { entered := [.handle id], ceded := [.handle id], accepted := [.handle id] } board
  /-- The task that a call has made a handle for is dropped. -/
  | disown (id : HandleId) : Deal board { ceded := [.handle id] } (board.tell id .lost)
  /-- A task with a new handle is accepted at once. -/
  | submit :
      Deal board { entered := [.handle board.nextHandle], accepted := [.handle board.nextHandle] }
        board.openHandle.2
  /-- A task with a new handle is dropped at once. -/
  | spurn :
      Deal board { spurned := [.handle board.nextHandle] }
        (board.openHandle.2.tell board.nextHandle .lost)
  /-- A task ends; a member keeps its place in its group. -/
  | finish (audience : Audience) (outcome : Outcome ρ) :
      Deal board
        { left := [audience], entered := audience.places.map .group
          ended := [(audience, outcome)] }
        (board.hear audience outcome)
  | leave (group : GroupId) : Deal board { left := [.group group] } (board.leaveGroup group)
  /-- The queue is dropped, and it may be that a task ends of which nobody hears. -/
  | drop (dropped : List Audience) (fallen : Option (Outcome ρ)) :
      Deal board
        { left := fallen.toList.map (fun _ => .nobody) ++ dropped
          ended := fallen.toList.map (.nobody, ·) }
        (dropped.foldl dismiss board)
  | openGroup : Deal board {} board.openGroup.2
  | dropHandle (id : HandleId) : Deal board { consumed := [.handle id] } (board.dropHandle id)
  | dropGroup (id : GroupId) : Deal board { consumed := [.group id] } (board.dropGroup id)

end Board

namespace Pool

variable {pool pool' : Pool β ρ} {change : Change ρ}

/-- A step changes the board and the tasks of a pool together. -/
structure Trade (change : Change ρ) (pool pool' : Pool β ρ) : Prop where
  deal : pool.board.Deal change pool'.board
  seats : ∃ stay, pool.seats.Perm (change.left ++ stay) ∧
    pool'.seats.Perm (change.entered ++ stay)
  accepted : change.accepted = (pool.grown pool').map (·.audience)

theorem Stirred.seats (hstirred : pool.Stirred pool') : pool'.seats = pool.seats := by
  have hworkers : pool'.workers.filterMap (·.stage.seat?) =
      pool.workers.filterMap (·.stage.seat?) := by
    have hforall := hstirred.workers
    generalize pool.workers = before at hforall
    generalize pool'.workers = after at hforall
    induction hforall with
    | nil => rfl
    | @cons worker worker' _ _ hworker _ ih =>
      have hseat : worker'.stage.seat? = worker.stage.seat? := by
        obtain rfl | rfl := hworker
        · rfl
        · obtain ⟨stage, thread⟩ := worker
          cases stage <;> rfl
      rw [List.filterMap_cons, List.filterMap_cons, hseat, ih]
  rw [Pool.seats, Pool.seats, hstirred.queue, hworkers]

theorem map_grown_of_queue (hqueue : pool'.queue = pool.queue) :
    [] = (pool.grown pool').map (·.audience) := by
  rw [grown, hqueue, List.drop_length, List.map_nil]

/-- Nothing changes but the board. -/
theorem trade_of_seats (hdeal : pool.board.Deal {} pool'.board) (hseats : pool'.seats = pool.seats)
    (hqueue : pool'.queue = pool.queue) : Trade {} pool pool' :=
  ⟨hdeal, ⟨pool.seats, .refl _, .of_eq hseats⟩, map_grown_of_queue hqueue⟩

/-- A handle or a group is given up. -/
theorem trade_of_drop {audience : Audience}
    (hdeal : pool.board.Deal { consumed := [audience] } pool'.board)
    (hseats : pool'.seats = pool.seats) (hqueue : pool'.queue = pool.queue) :
    Trade { consumed := [audience] } pool pool' :=
  ⟨hdeal, ⟨pool.seats, .refl _, .of_eq hseats⟩, map_grown_of_queue hqueue⟩

theorem trade_of_stirred (hstirred : pool.Stirred pool') : Trade {} pool pool' :=
  trade_of_seats (hstirred.board ▸ .still) hstirred.seats hstirred.queue

/-- Waking workers is no business of the tasks. -/
theorem Trade.stirred {pool'' : Pool β ρ} (htrade : Trade change pool pool')
    (hstirred : pool'.Stirred pool'') : Trade change pool pool'' := by
  refine ⟨hstirred.board ▸ htrade.deal, hstirred.seats ▸ htrade.seats, ?_⟩
  rw [htrade.accepted, grown, grown, hstirred.queue]

section Worker

variable {i : Nat} {worker worker' : Worker β} {after : Stage β}

/-- A worker changes the pool to `p` and goes on to another stage. -/
theorem trade_setStage {p : Pool β ρ} (hget : pool.workers[i]? = some worker)
    (hworkers : p.workers = pool.workers) (hdeal : pool.board.Deal change p.board)
    (hseats : ∃ stay,
      (pool.queue.toList.map (·.audience) ++ worker.stage.seat?.toList).Perm
        (change.left ++ stay) ∧
      (p.queue.toList.map (·.audience) ++ after.seat?.toList).Perm (change.entered ++ stay))
    (haccepted : change.accepted = (pool.grown p).map (·.audience)) :
    Trade change pool (p.setStage i worker' after) := by
  obtain ⟨rest, hbefore, hset⟩ := exists_perm_filterMap_of_getElem?
    (fun worker : Worker β => worker.stage.seat?) hget
  obtain ⟨stay, hleft, hentered⟩ := hseats
  refine ⟨hdeal, ⟨stay ++ rest, ?_, ?_⟩, haccepted⟩
  · refine (hbefore.append_left _).trans ?_
    rw [← List.append_assoc, ← List.append_assoc]
    exact hleft.append_right rest
  · simp only [Pool.seats, setStage, hworkers]
    refine ((hset { worker' with stage := after }).append_left _).trans ?_
    rw [← List.append_assoc, ← List.append_assoc]
    exact hentered.append_right rest

/-- A worker goes on to a stage in which it keeps the same place, or none as before. -/
theorem trade_setStage_same {p : Pool β ρ} (hget : pool.workers[i]? = some worker)
    (hworkers : p.workers = pool.workers) (hqueue : p.queue = pool.queue)
    (hboard : p.board = pool.board) (hseat : after.seat? = worker.stage.seat?) :
    Trade {} pool (p.setStage i worker' after) := by
  refine trade_setStage hget hworkers (hboard ▸ .still) ⟨_, .refl _, ?_⟩
    (map_grown_of_queue hqueue)
  rw [hqueue, hseat]
  exact .refl _

/-- A worker that is over, perhaps because of its task, may be the last one. -/
theorem trade_collapse (fallen : Option (Outcome ρ)) (hget : pool.workers[i]? = some worker)
    (hbefore : worker.stage.seat?.toList = fallen.toList.map fun _ => .nobody)
    (hafter : after.seat? = none) :
    ∃ dropped, Trade
      { left := fallen.toList.map (fun _ => .nobody) ++ dropped
        ended := fallen.toList.map (.nobody, ·) }
      pool (pool.setStage i worker' after).collapse := by
  obtain ⟨rest, hseats, hset⟩ := exists_perm_filterMap_of_getElem?
    (fun worker : Worker β => worker.stage.seat?) hget
  have hworkers :
      ((pool.setStage i worker' after).workers.filterMap (·.stage.seat?)).Perm rest := by
    have hperm := hset { worker' with stage := after }
    rwa [hafter] at hperm
  rw [hbefore] at hseats
  unfold collapse
  split
  · refine ⟨pool.queue.toList.map (·.audience), ⟨?_, ⟨rest, ?_, hworkers⟩, ?_⟩⟩
    · have hdeal : pool.board.Deal _ _ := .drop (pool.queue.toList.map (·.audience)) fallen
      rwa [List.foldl_map] at hdeal
    · rw [Pool.seats]
      refine (hseats.append_left _).trans ?_
      rw [← List.append_assoc]
      exact List.perm_append_comm.append_right rest
    · exact (congrArg (List.map fun task : Task β => task.audience) List.drop_nil).symm
  · refine ⟨[], ⟨.drop [] fallen, ⟨pool.queue.toList.map (·.audience) ++ rest, ?_, ?_⟩, ?_⟩⟩
    · rw [List.append_nil, Pool.seats]
      refine (hseats.append_left _).trans ?_
      rw [← List.append_assoc, ← List.append_assoc]
      exact List.perm_append_comm.append_right rest
    · exact hworkers.append_left _
    · exact map_grown_of_queue rfl

/-- An owner that was the last one may find all workers over. -/
theorem trade_release (pool : Pool β ρ) :
    ∃ dropped, Trade { left := dropped } pool pool.release := by
  unfold release collapse
  split
  · refine ⟨pool.queue.toList.map (·.audience), ⟨?_, ⟨_, .refl _, .refl _⟩, ?_⟩⟩
    · have hdeal : pool.board.Deal _ _ := .drop (pool.queue.toList.map (·.audience)) none
      rwa [List.foldl_map] at hdeal
    · exact (congrArg (List.map fun task : Task β => task.audience) List.drop_nil).symm
  · exact ⟨[], trade_of_seats .still rfl rfl⟩

/-- A worker that looks at the queue changes the board only by what a deserted pool drops. -/
theorem trade_look {draining : Bool} (hget : pool.workers[i]? = some worker)
    (hstage : worker.stage = .awake draining) :
    ∃ dropped, Trade { left := dropped } pool (pool.look i worker draining) := by
  unfold look
  split
  · next task queue hpop =>
    have hpop : pool.queue.pop? = some (task, queue) := by
      split at hpop
      · exact hpop
      · cases hpop
    have hqueue := Fifo.toList_of_pop? hpop
    have htraffic : Traffic pool { pool with queue } [] [task] := .pop hpop
    refine ⟨[], trade_setStage (p := { pool with queue }) hget rfl .still ⟨_, .refl _, ?_⟩ ?_⟩
    · rw [hqueue, hstage]
      exact List.perm_append_comm.trans (.of_eq (List.append_nil _).symm)
    · rw [htraffic.grown_eq]
      rfl
  · split
    · exact trade_collapse none hget (by rw [hstage]; rfl) rfl
    · exact ⟨[], trade_setStage_same hget rfl rfl rfl (by rw [hstage]; rfl)⟩

section Running

variable {task : Task β} (hget : pool.workers[i]? = some worker)
  (hstage : worker.stage = .running task)

include hget hstage

/-- A task ends, and others may hear of it. -/
theorem trade_conclude (outcome : Outcome ρ) :
    ∃ change, Trade change pool (pool.conclude i worker task.audience outcome) ∧
      change.Toils pool.shutDown ∧ change.ended = [(task.audience, outcome)] := by
  have hseat : worker.stage.seat?.toList = [task.audience] := by rw [hstage]; rfl
  have hfinish : ∀ {board : Board ρ} {after : Stage β},
      board = pool.board.hear task.audience outcome →
      after.seat?.toList = task.audience.places.map .group →
      ∃ change, Trade change pool ({ pool with board }.setStage i worker after) ∧
        change.Toils pool.shutDown ∧ change.ended = [(task.audience, outcome)] := by
    rintro board after rfl hafter
    refine ⟨_, trade_setStage (p := { pool with board := pool.board.hear task.audience outcome })
      hget rfl (.finish task.audience outcome) ⟨pool.queue.toList.map (·.audience), ?_, ?_⟩ ?_,
      ⟨rfl, rfl, rfl, .inl rfl⟩, rfl⟩
    · rw [hseat]
      exact List.perm_append_comm
    · rw [hafter]
      exact List.perm_append_comm
    · exact map_grown_of_queue rfl
  obtain ⟨audience, body, owners⟩ := task
  dsimp only at hseat hfinish ⊢
  unfold conclude
  split
  · exact @hfinish pool.board _ rfl rfl
  · next payload =>
    have hafter : (Stage.dead : Stage β).seat? = none := rfl
    obtain ⟨dropped, htrade⟩ := trade_collapse (some (.fault payload)) hget hseat hafter
    exact ⟨_, htrade, ⟨rfl, rfl, rfl, .inl rfl⟩, rfl⟩
  · exact hfinish rfl rfl
  · exact @hfinish pool.board _ rfl rfl
  · exact hfinish rfl rfl

/-- A task goes on. -/
theorem trade_go {p : Pool β ρ} (hworkers : p.workers = pool.workers)
    (hqueue : p.queue = pool.queue) (hboard : p.board = pool.board)
    (hafter : after.seat? = some task.audience) : Trade {} pool (p.setStage i worker' after) :=
  trade_setStage_same hget hworkers hqueue hboard (by rw [hafter, hstage]; rfl)

/-- A task queues another one, unless the pool is shut down. -/
theorem trade_enqueueFrom {p : Pool β ρ} {queued accepted refused : Task β}
    {spurned : List Audience} (hshut : p.shutDown = pool.shutDown)
    (hworkers : p.workers = pool.workers) (hqueue : p.queue = pool.queue)
    (haccepted : accepted.audience = task.audience) (hrefused : refused.audience = task.audience)
    (hpushed : p.shutDown = false → pool.board.Deal
      { entered := [queued.audience], accepted := [queued.audience] }
      (p.board.enlist queued.audience))
    (hdropped : pool.board.Deal { spurned } (p.board.refuse queued.audience)) :
    ∃ change, Trade change pool (p.enqueueFrom i worker queued accepted refused) ∧
      change.Toils pool.shutDown ∧ change.ended = [] := by
  have hseat : worker.stage.seat?.toList = [task.audience] := by rw [hstage]; rfl
  unfold enqueueFrom
  obtain ⟨hclosed, hoffer⟩ | ⟨hopen, hoffer⟩ := p.offer?_cases queued
  · rw [hoffer]
    refine ⟨{ spurned }, trade_setStage (p := { p with board := p.board.refuse queued.audience })
      hget hworkers hdropped ⟨_, .refl _, ?_⟩ ?_, ⟨rfl, rfl, rfl, .inr (hshut ▸ hclosed)⟩, rfl⟩
    · rw [hqueue, hseat]
      exact .of_eq (by rw [← hrefused]; rfl)
    · exact map_grown_of_queue hqueue
  · rw [hoffer]
    have hpush : ∀ {after : Stage β}, after.seat? = some accepted.audience →
        Trade { entered := [queued.audience], accepted := [queued.audience] } pool
          ((p.accept queued).setStage i worker after) := by
      intro after hafter
      refine trade_setStage hget hworkers (hpushed hopen) ⟨_, .refl _, ?_⟩ ?_
      · rw [hafter, haccepted, hseat, ← hqueue]
        simp only [accept, Fifo.toList_push, List.map_append, Option.toList_some]
        exact List.perm_append_comm.append_right _
      · have hpushed : (p.accept queued).queue.toList = pool.queue.toList ++ [queued] := by
          rw [← hqueue]
          exact Fifo.toList_push p.queue queued
        rw [grown, hpushed, List.drop_left]
        rfl
    refine ⟨{ entered := [queued.audience], accepted := [queued.audience] }, ?_,
      ⟨rfl, rfl, rfl, .inl rfl⟩, rfl⟩
    dsimp only
    split
    · exact hpush rfl
    · exact hpush rfl

/-- A task that asks for another one takes a place for it. -/
theorem trade_askFrom (rest : Reply → β) (request : Request β)
    (hhas : ∀ queued ∈ pool.grown (pool.askFrom i worker task rest request),
      pool.board.Has queued.audience) :
    ∃ change, Trade change pool (pool.askFrom i worker task rest request) ∧
      change.Toils pool.shutDown ∧ change.ended = [] := by
  have hqueued : ∀ {p : Pool β ρ} {queued accepted refused : Task β}, p.queue = pool.queue →
      p.shutDown = false →
      queued ∈ pool.grown (p.enqueueFrom i worker queued accepted refused) := by
    intro p queued accepted refused hqueue hopen
    obtain ⟨hshut, -⟩ | ⟨-, hoffer⟩ := p.offer?_cases queued
    · cases hopen.symm.trans hshut
    · have htoList : (p.enqueueFrom i worker queued accepted refused).queue.toList =
          pool.queue.toList ++ [queued] := by
        rw [enqueueFrom, hoffer, ← hqueue]
        dsimp only
        split <;> exact Fifo.toList_push p.queue queued
      rw [grown, htoList, List.drop_left]
      exact List.mem_singleton_self queued
  cases request with
  | execute body owners =>
    exact trade_enqueueFrom hget hstage rfl rfl rfl rfl rfl (fun _ => .accept nofun nofun) .still
  | submit body owners =>
    exact trade_enqueueFrom (p := { pool with board := pool.board.openHandle.2 }) hget hstage rfl
      rfl rfl rfl rfl (fun _ => .submit) .spurn
  | spawnMember group body owners =>
    exact trade_enqueueFrom hget hstage rfl rfl rfl rfl rfl
      (fun hopen => .accept nofun (hhas _ (hqueued rfl hopen))) .still
  | signalWork => exact ⟨{}, trade_go hget hstage rfl rfl rfl rfl, ⟨rfl, rfl, rfl, .inl rfl⟩, rfl⟩
  | signalWait => exact ⟨{}, trade_go hget hstage rfl rfl rfl rfl, ⟨rfl, rfl, rfl, .inl rfl⟩, rfl⟩
  | finalize => exact ⟨{}, trade_go hget hstage rfl rfl rfl rfl, ⟨rfl, rfl, rfl, .inl rfl⟩, rfl⟩

theorem trade_adoptFrom (rest : Bool → β) :
    Trade {} pool (pool.adoptFrom i worker task rest) := by
  unfold adoptFrom
  split <;> exact trade_go hget hstage rfl rfl rfl rfl

theorem trade_giveUpFrom {task' : Task β} (hsame : task'.audience = task.audience) :
    Trade {} pool (pool.giveUpFrom i worker task') := by
  simp only [giveUpFrom]
  split <;> exact trade_go hget hstage rfl rfl rfl (congrArg some hsame)

end Running

section Closing

variable {last : Bool} {closing : Closing} {task : Task β}

/-- A worker that goes on after it has closed its pool is not over, and the queue is kept. -/
theorem trade_resumeFrom {p : Pool β ρ} (hget : pool.workers[i]? = some worker)
    (hstage : worker.stage = .closing last closing task) (hworkers : p.workers = pool.workers)
    (hqueue : p.queue = pool.queue) (hboard : p.board = pool.board) :
    Trade {} pool (p.resumeFrom i worker' last task) := by
  have hsame : (Stage.running task).seat? = worker.stage.seat? := by rw [hstage]; rfl
  unfold resumeFrom
  split
  · have hactive : ((p.setStage i worker' (.running task)).stage i).isOver = false := by
      rw [stage_setStage_eq hget hworkers, Function.update_self]
      rfl
    have hrelease : (p.setStage i worker' (.running task)).release =
        Pool.setStage { p with released := true } i worker' (.running task) :=
      collapse_of_not_isOver (i := i) hactive
    rw [hrelease]
    exact trade_setStage_same (p := { p with released := true }) hget hworkers hqueue hboard hsame
  · exact trade_setStage_same hget hworkers hqueue hboard hsame

theorem trade_closeFrom (hget : pool.workers[i]? = some worker)
    (hstage : worker.stage = .closing last closing task)
    (hclose : pool.closeFrom i worker last task closing = some pool') : Trade {} pool pool' := by
  have hsame : ∀ closing', (Stage.closing last closing' task).seat? = worker.stage.seat? := by
    rw [hstage]
    exact fun _ => rfl
  cases closing with
  | begun =>
    cases hclose
    exact trade_setStage_same (p := pool.beginShutdown) hget rfl rfl rfl (hsame _)
  | flagged =>
    cases hclose
    rw [wakeAll_setStage _ _ _ rfl]
    have htrade : Trade {} pool (pool.setStage i worker (.closing last .announced task)) :=
      trade_setStage_same hget rfl rfl rfl (hsame _)
    exact htrade.stirred (stirred_wakeAll _)
  | announced =>
    simp only [closeFrom, takeWorkers] at hclose
    cases hleft : pool.unjoined with
    | nil =>
      rw [hleft] at hclose
      cases hclose
      exact trade_resumeFrom (p := { pool with unjoined := [] }) hget hstage rfl rfl rfl
    | cons j left =>
      rw [hleft] at hclose
      cases hclose
      exact trade_setStage_same (p := { pool with unjoined := [] }) hget rfl rfl rfl (hsame _)
  | joining left =>
    cases left with
    | nil =>
      cases hclose
      exact trade_resumeFrom hget hstage rfl rfl rfl
    | cons j left =>
      simp only [closeFrom] at hclose
      split at hclose
      · cases hclose
        exact trade_setStage_same hget rfl rfl rfl (hsame _)
      · cases hclose

end Closing

end Worker

/-- A task that a call queues answers to the handle that the call has made for it, or to no handle.
-/
theorem Errand.task?_audience {errand : Errand β} {k : Standing ρ} {task : Task β}
    (htask : errand.task? k = some task) :
    (∃ id, k = .opened id ∧ task.audience = .handle id) ∨
      k.seat? = none ∧ k.handle? = none ∧ ∀ id, task.audience ≠ .handle id := by
  cases errand <;> cases k <;> cases htask
  · exact .inl ⟨_, rfl, rfl⟩
  · exact .inr ⟨rfl, rfl, nofun⟩
  · exact .inr ⟨rfl, rfl, nofun⟩

theorem grown_accept (pool : Pool β ρ) (task : Task β) :
    pool.grown (pool.accept task) = [task] := by
  have htoList : (pool.accept task).queue.toList = pool.queue.toList ++ [task] :=
    Fifo.toList_push pool.queue task
  rw [grown, htoList, List.drop_left]

/-- A task that is queued has a place. -/
theorem seats_accept (pool : Pool β ρ) (task : Task β) :
    (pool.accept task).seats.Perm (task.audience :: pool.seats) := by
  simp only [seats, accept, Fifo.toList_push, List.map_append, List.append_assoc]
  exact List.perm_middle

/-- A call queues its task, which it may have claimed a handle for. -/
theorem trade_accept {errand : Errand β} {k : Standing ρ} {task : Task β}
    (htask : errand.task? k = some task) (hhas : pool.board.Has task.audience) :
    ∃ change, Trade change pool (pool.accept task) ∧ change.ended = [] ∧ change.consumed = [] ∧
      change.claimed = [] ∧ k.seat?.toList = change.ceded := by
  have haccepted : [task.audience] = (pool.grown (pool.accept task)).map (·.audience) := by
    rw [grown_accept, List.map_singleton]
  obtain ⟨id, rfl, haudience⟩ | ⟨hidle, -, hanonymous⟩ := Errand.task?_audience htask
  · have hboard : (pool.accept task).board = pool.board := by
      rw [Pool.accept, haudience]
      rfl
    refine ⟨{ entered := [.handle id], ceded := [.handle id], accepted := [.handle id] },
      ⟨?_, ⟨pool.seats, .refl _, haudience ▸ seats_accept pool task⟩, haudience ▸ haccepted⟩, rfl,
      rfl, rfl, rfl⟩
    rw [hboard]
    exact .enroll id
  · refine ⟨{ entered := [task.audience], accepted := [task.audience] },
      ⟨.accept hanonymous hhas, ⟨pool.seats, .refl _, seats_accept pool task⟩, haccepted⟩, rfl,
      rfl, rfl, ?_⟩
    rw [hidle]
    rfl

/-- Whether a call consumes a handle or a group. -/
def Errand.Consumes : Errand β → Audience → Prop
  | tryJoin id, audience | join id, audience | detach id, audience => audience = .handle id
  | waitGroup id, audience | abandonGroup id, audience => audience = .group id
  | _, _ => False

/-- A call changes the board and the tasks, and what it is about to queue. -/
theorem Moves.trade {errand : Errand β} {k k' : Standing ρ} {t t' : Thread}
    (hmoves : Moves errand k t pool k' t' pool')
    (hhas : ∀ queued ∈ pool.grown pool', pool.board.Has queued.audience) :
    ∃ change, Trade change pool pool' ∧ change.ended = [] ∧
      (∀ audience ∈ change.consumed, errand.Consumes audience) ∧
      ∃ stay, k.seat?.toList = change.ceded ++ stay ∧ k'.seat?.toList = change.claimed ++ stay := by
  have hnone : ∀ audience ∈ ([] : List Audience), errand.Consumes audience :=
    fun audience hmem => absurd hmem List.not_mem_nil
  cases hmoves with
  | openHandle =>
    exact ⟨_, ⟨.claim, ⟨_, .refl _, .refl _⟩, map_grown_of_queue rfl⟩, rfl, hnone, [], rfl, rfl⟩
  | @accept _ _ _ task htask hopen =>
    have hseat : (if pool.workEnabled = true then Standing.queued k.handle?
        else (Standing.accepted k.handle? : Standing ρ)).seat? = none := by
      split <;> rfl
    obtain ⟨change, htrade, hended, hconsumed, hclaimed, hceded⟩ :=
      trade_accept htask (hhas task (by rw [grown_accept]; exact List.mem_singleton_self task))
    refine ⟨change, htrade, hended, hconsumed ▸ hnone, [], ?_, ?_⟩
    · rw [hceded, List.append_nil]
    · rw [hseat, hclaimed]
      rfl
  | refuse htask =>
    refine ⟨{}, trade_of_seats .still rfl rfl, rfl, hnone, k.seat?.toList, rfl, ?_⟩
    obtain ⟨id, rfl, -⟩ | ⟨hseat, hhandle, -⟩ := Errand.task?_audience htask
    · rfl
    · rw [hseat, hhandle]
      rfl
  | wakeOne choice =>
    exact ⟨{}, trade_of_stirred (stirred_wakeOne pool choice), rfl, hnone, [], rfl, rfl⟩
  | @tellLost id =>
    exact ⟨{ ceded := [.handle id] },
      ⟨.disown id, ⟨_, .refl _, .refl _⟩, map_grown_of_queue rfl⟩, rfl, hnone, [], rfl, rfl⟩
  | wakeAll => exact ⟨{}, trade_of_stirred (stirred_wakeAll pool), rfl, hnone, [], rfl, rfl⟩
  | announce => exact ⟨{}, trade_of_stirred (stirred_wakeAll pool), rfl, hnone, [], rfl, rfl⟩
  | release =>
    obtain ⟨dropped, htrade⟩ := trade_release pool
    exact ⟨_, htrade, rfl, hnone, [], rfl, rfl⟩
  | openGroup => exact ⟨{}, trade_of_seats .openGroup rfl rfl, rfl, hnone, [], rfl, rfl⟩
  | @hearDelivered id _ _ _ herrand =>
    refine ⟨{ consumed := [.handle id] }, trade_of_drop (.dropHandle id) rfl rfl, rfl,
      List.forall_mem_singleton.2 ?_, [], rfl, rfl⟩
    obtain rfl | rfl := herrand <;> rfl
  | @hearLost id _ _ herrand =>
    refine ⟨{ consumed := [.handle id] }, trade_of_drop (.dropHandle id) rfl rfl, rfl,
      List.forall_mem_singleton.2 ?_, [], rfl, rfl⟩
    obtain rfl | rfl := herrand <;> rfl
  | detach herrand =>
    subst herrand
    exact ⟨_, trade_of_drop (.dropHandle _) rfl rfl, rfl,
      List.forall_mem_singleton.2 rfl, [], rfl, rfl⟩
  | waitGroup herrand =>
    subst herrand
    exact ⟨_, trade_of_drop (.dropGroup _) rfl rfl, rfl,
      List.forall_mem_singleton.2 rfl, [], rfl, rfl⟩
  | abandonGroup herrand =>
    subst herrand
    exact ⟨_, trade_of_drop (.dropGroup _) rfl rfl, rfl,
      List.forall_mem_singleton.2 rfl, [], rfl, rfl⟩
  | _ => exact ⟨{}, trade_of_seats .still rfl rfl, rfl, hnone, [], rfl, rfl⟩

end Pool

namespace Worksite

/-- To whom the task answers that a worker is about to end, and how it ends. -/
def ending? (B : Body β ε ρ) (i : Nat) (s : Worksite β ε ρ) : Option (Audience × Outcome ρ) :=
  match (s.pool.stage i).audience?, s.outcome? B i with
  | some audience, some outcome => some (audience, outcome)
  | _, _ => none

section Ending

variable {B : Body β ε ρ} {choice : Choice} {i : Nat} {s s' : Worksite β ε ρ} {worker : Worker β}

theorem ending?_of_idle (hget : s.pool.workers[i]? = some worker)
    (hidle : ∀ task, worker.stage ≠ .running task) : s.ending? B i = none := by
  have hnone : s.outcome? B i = none := by
    unfold outcome?
    rw [hget]
    obtain ⟨stage, thread⟩ := worker
    cases stage with
    | running task => exact absurd rfl (hidle task)
    | _ => rfl
  unfold ending?
  rw [hnone]
  cases (s.pool.stage i).audience? <;> rfl

/-- A task ends with what its body says. -/
theorem ending?_of_running {task : Task β} (hget : s.pool.workers[i]? = some worker)
    (hstage : worker.stage = .running task) :
    s.ending? B i =
      match B.step (s.pool.workerName i) worker.thread s.env task.body with
      | .finish _ outcome => some (task.audience, outcome)
      | _ => none := by
  obtain ⟨stage, thread⟩ := worker
  dsimp only at hstage
  subst hstage
  unfold ending? outcome?
  rw [Pool.stage_of_getElem? hget, hget]
  cases hmove : B.step (s.pool.workerName i) thread s.env task.body <;> simp only [hmove] <;> rfl

/-- What a task does on its worker. -/
theorem workerStep_trade_of_running {worker : Worker β} {task : Task β}
    (hget : s.pool.workers[i]? = some worker) (hstage : worker.stage = .running task)
    (hstep : s.workerStep B choice i = some s')
    (hhas : ∀ queued ∈ s.pool.grown s'.pool, s.pool.board.Has queued.audience) :
    ∃ change, Pool.Trade change s.pool s'.pool ∧ change.Toils s.pool.shutDown ∧
      change.ended = (s.ending? B i).toList := by
  rw [ending?_of_running hget hstage]
  simp only [workerStep, hget, hstage] at hstep
  split at hstep
  · next hmove =>
    cases hstep
    rw [hmove]
    exact ⟨{}, Pool.trade_go hget hstage rfl rfl rfl rfl, ⟨rfl, rfl, rfl, .inl rfl⟩, rfl⟩
  · cases hstep
  · next hmove =>
    cases hstep
    rw [hmove]
    exact ⟨{}, Pool.trade_adoptFrom hget hstage _, ⟨rfl, rfl, rfl, .inl rfl⟩, rfl⟩
  · next hmove =>
    cases hstep
    rw [hmove]
    exact ⟨{}, Pool.trade_giveUpFrom hget hstage rfl, ⟨rfl, rfl, rfl, .inl rfl⟩, rfl⟩
  · next hmove =>
    cases hstep
    rw [hmove]
    exact Pool.trade_askFrom hget hstage _ _ hhas
  · next hmove =>
    cases hstep
    rw [hmove]
    exact Pool.trade_conclude hget hstage _

/-- A worker changes the board and the tasks. -/
theorem workerStep_trade (hstep : s.workerStep B choice i = some s')
    (hhas : ∀ queued ∈ s.pool.grown s'.pool, s.pool.board.Has queued.audience) :
    ∃ change, Pool.Trade change s.pool s'.pool ∧ change.Toils s.pool.shutDown ∧
      change.ended = (s.ending? B i).toList := by
  have hstep' := hstep
  unfold workerStep at hstep
  split at hstep
  · cases hstep
  · next worker hget =>
    have hidle : (∀ task, worker.stage ≠ .running task) → (s.ending? B i).toList = [] := by
      intro hne
      rw [ending?_of_idle hget hne]
      rfl
    split at hstep
    · next draining hstage =>
      cases hstep
      obtain ⟨dropped, htrade⟩ := Pool.trade_look hget hstage
      exact ⟨_, htrade, ⟨rfl, rfl, rfl, .inl rfl⟩, (hidle (by rw [hstage]; exact nofun)).symm⟩
    · next task hstage => exact workerStep_trade_of_running hget hstage hstep' hhas
    · next task hstage =>
      cases hstep
      have hgo : Pool.Trade {} s.pool (s.pool.setStage i worker (.running task)) :=
        Pool.trade_setStage_same hget rfl rfl rfl (by rw [hstage]; rfl)
      exact ⟨{}, hgo.stirred (Pool.stirred_wakeOne _ choice), ⟨rfl, rfl, rfl, .inl rfl⟩,
        (hidle (by rw [hstage]; exact nofun)).symm⟩
    · next task hstage =>
      cases hstep
      have hgo : Pool.Trade {} s.pool (s.pool.setStage i worker (.running task)) :=
        Pool.trade_setStage_same hget rfl rfl rfl (by rw [hstage]; rfl)
      refine ⟨{}, ?_, ⟨rfl, rfl, rfl, .inl rfl⟩, (hidle (by rw [hstage]; exact nofun)).symm⟩
      dsimp only
      rw [Pool.wakeAll_setStage _ _ _ rfl]
      exact hgo.stirred (Pool.stirred_wakeAll _)
    · next last closing task hstage =>
      obtain ⟨pool', hclose, rfl⟩ := Option.map_eq_some_iff.1 hstep
      exact ⟨{}, Pool.trade_closeFrom hget hstage hclose, ⟨rfl, rfl, rfl, .inl rfl⟩,
        (hidle (by rw [hstage]; exact nofun)).symm⟩
    · next group hstage =>
      cases hstep
      refine ⟨{ left := [.group group] }, Pool.trade_setStage
        (p := { s.pool with board := s.pool.board.leaveGroup group }) hget rfl (.leave group)
        ⟨s.pool.queue.toList.map (·.audience), ?_, ?_⟩ (Pool.map_grown_of_queue rfl),
        ⟨rfl, rfl, rfl, .inl rfl⟩, (hidle (by rw [hstage]; exact nofun)).symm⟩
      · rw [hstage]
        exact List.perm_append_comm
      · exact .of_eq (List.append_nil _)
    · cases hstep
    · cases hstep
    · cases hstep

end Ending

end Worksite

end MarkSweep
