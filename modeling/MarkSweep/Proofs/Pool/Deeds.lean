import MarkSweep.Proofs.Pool.Progress

namespace MarkSweep

variable {β ε ρ : Type}

namespace Stage

/-- The task that a worker has begun and not ended. -/
def underway? : Stage β → Option (Task β)
  | running task | signalling task | announcing task | closing _ _ task => some task
  | awake _ | leaving _ | parked | exited | dead => none

/-- The task, if any, that a worker begins by going from one stage to another. -/
def begun (before after : Stage β) : List (Task β) :=
  match before.underway?, after.underway? with
  | none, some task => [task]
  | _, _ => []

/-- Whether a worker ends a task by going from one stage to another. -/
def hasEnded (before after : Stage β) : Bool :=
  before.underway?.isSome && after.underway?.isNone

theorem begun_of_underway?_eq_none {before after : Stage β} (hafter : after.underway? = none) :
    before.begun after = [] := by
  unfold begun
  rw [hafter]
  split <;> trivial

end Stage

namespace Pool

/-- What a worker is doing; one that the pool does not have does nothing any more. -/
def stage (pool : Pool β ρ) (i : Nat) : Stage β :=
  match pool.workers[i]? with
  | some worker => worker.stage
  | none => .exited

/-- The tasks that a pool has added to its queue since it was in an earlier state. -/
def grown (pool pool' : Pool β ρ) : List (Task β) :=
  pool'.queue.toList.drop pool.queue.toList.length

/-- Nobody keeps the pool, and every worker is over. -/
def Deserted (pool : Pool β ρ) : Prop :=
  pool.released = true ∧ ∀ i, (pool.stage i).isOver = true

/-- What a single step does to the queue: the tasks that it adds at the end, and those that it takes
from the front. -/
inductive Traffic (pool pool' : Pool β ρ) : List (Task β) → List (Task β) → Prop
  | same (hqueue : pool'.queue = pool.queue) : Traffic pool pool' [] []
  | push {task : Task β} (hopen : pool.shutDown = false)
      (hqueue : pool'.queue = pool.queue.push task) : Traffic pool pool' [task] []
  | pop {task : Task β} (hpop : pool.queue.pop? = some (task, pool'.queue)) :
      Traffic pool pool' [] [task]
  | drop (hqueue : pool'.queue.toList = []) (hdeserted : pool'.Deserted) : Traffic pool pool' [] []

variable {pool pool' : Pool β ρ} {added taken : List (Task β)}

/-- What a queue has grown by is what was added. -/
theorem Traffic.grown_eq (htraffic : Traffic pool pool' added taken) :
    pool.grown pool' = added := by
  unfold grown
  cases htraffic with
  | same hqueue => rw [hqueue, List.drop_length]
  | push _ hqueue => rw [hqueue, Fifo.toList_push, List.drop_left]
  | pop hpop =>
    rw [Fifo.toList_of_pop? hpop, List.length_cons]
    exact List.drop_of_length_le (Nat.le_succ _)
  | drop hqueue => rw [hqueue, List.drop_nil]

/-- What was added and taken accounts for every task of the queue, unless the queue was dropped. -/
theorem Traffic.balance (htraffic : Traffic pool pool' added taken) :
    ∃ dropped, pool.queue.toList ++ added = taken ++ pool'.queue.toList ++ dropped ∧
      (dropped ≠ [] → pool'.Deserted) := by
  cases htraffic with
  | same hqueue => exact ⟨[], by simp [hqueue], nofun⟩
  | push _ hqueue => exact ⟨[], by simp [hqueue], nofun⟩
  | pop hpop => exact ⟨[], by simp [Fifo.toList_of_pop? hpop], nofun⟩
  | drop hqueue hdeserted => exact ⟨pool.queue.toList, by simp [hqueue], fun _ => hdeserted⟩

/-- Nothing is added to a pool that is shut down. -/
theorem Traffic.shutDown_eq_false (htraffic : Traffic pool pool' added taken) (hne : added ≠ []) :
    pool.shutDown = false := by
  cases htraffic with
  | push hopen _ => exact hopen
  | _ => exact absurd rfl hne

theorem stage_of_getElem? {i : Nat} {worker : Worker β} (hget : pool.workers[i]? = some worker) :
    pool.stage i = worker.stage := by
  rw [stage, hget]

/-- Where there is no worker, the stage is that of one that has exited. -/
theorem stage_of_workers {P : Stage β → Prop} (hworkers : ∀ worker ∈ pool.workers, P worker.stage)
    (hexited : P .exited) (i : Nat) : P (pool.stage i) := by
  unfold stage
  split
  · next worker hget => exact hworkers worker (List.mem_of_getElem? hget)
  · exact hexited

theorem lt_of_stage_ne {i : Nat} (hne : pool.stage i ≠ .exited) : i < pool.workers.length := by
  by_contra hge
  rw [stage, List.getElem?_eq_none (Nat.not_lt.1 hge)] at hne
  exact hne rfl

/-- Waking a worker moves it on if it was parked, and only then. -/
theorem Stirred.stage (hstirred : pool.Stirred pool') (j : Nat) :
    pool'.stage j = pool.stage j ∨ pool.stage j = .parked ∧ pool'.stage j = .awake false := by
  have hlen := hstirred.workers.length_eq
  cases hget : pool.workers[j]? with
  | none =>
    have hget' : pool'.workers[j]? = none := by
      rw [List.getElem?_eq_none_iff] at hget ⊢
      omega
    rw [Pool.stage, Pool.stage, hget, hget']
    exact .inl rfl
  | some worker =>
    obtain ⟨hlt, rfl⟩ := List.getElem?_eq_some_iff.1 hget
    have hlt' : j < pool'.workers.length := hlen ▸ hlt
    have hworker := (List.forall₂_iff_get.1 hstirred.workers).2 j hlt hlt'
    rw [stage_of_getElem? hget, stage_of_getElem? (List.getElem?_eq_getElem hlt')]
    simp only [List.get_eq_getElem] at hworker
    obtain heq | heq := hworker
    · rw [heq]
      exact .inl rfl
    · rw [heq, Worker.woken]
      generalize pool.workers[j] = worker
      obtain ⟨stage, thread⟩ := worker
      cases stage with
      | parked => exact .inr ⟨rfl, rfl⟩
      | _ => exact .inl rfl

theorem Stirred.isOver_stage (hstirred : pool.Stirred pool') (j : Nat) :
    (pool'.stage j).isOver = (pool.stage j).isOver := by
  obtain h | ⟨hparked, hawake⟩ := hstirred.stage j
  · rw [h]
  · rw [hparked, hawake]
    rfl

theorem Traffic.stirred {pool'' : Pool β ρ} (htraffic : Traffic pool pool' added taken)
    (hstirred : pool'.Stirred pool'') : Traffic pool pool'' added taken := by
  cases htraffic with
  | same hqueue => exact .same (hstirred.queue.trans hqueue)
  | push hopen hqueue => exact .push hopen (hstirred.queue.trans hqueue)
  | pop hpop => exact .pop (hstirred.queue ▸ hpop)
  | drop hqueue hdeserted =>
    refine .drop (hstirred.queue ▸ hqueue) ⟨hstirred.released.trans hdeserted.1, fun j => ?_⟩
    exact (hstirred.isOver_stage j).trans (hdeserted.2 j)

/-- A worker that comes to a stage leaves the others at theirs. -/
theorem stage_setStage {i : Nat} {before worker : Worker β} {after : Stage β}
    (hget : pool.workers[i]? = some before) :
    (pool.setStage i worker after).stage i = after ∧
      ∀ j, j ≠ i → (pool.setStage i worker after).stage j = pool.stage j := by
  have hlt := (List.getElem?_eq_some_iff.1 hget).1
  refine ⟨?_, fun j hj => ?_⟩
  · rw [stage, setStage, List.getElem?_set_self hlt]
  · rw [stage, stage, setStage, List.getElem?_set_ne (Ne.symm hj)]

/-- A pool is deserted when its owners are gone and its workers are over. -/
theorem deserted_iff (pool : Pool β ρ) :
    (pool.released && pool.workers.all (·.stage.isOver)) = true ↔ pool.Deserted := by
  rw [Bool.and_eq_true, List.all_eq_true]
  refine and_congr_right fun _ => ⟨fun hover => ?_, fun hover worker hmem => ?_⟩
  · exact stage_of_workers (P := (·.isOver = true)) hover rfl
  · obtain ⟨j, hget⟩ := List.mem_iff_getElem?.1 hmem
    rw [← stage_of_getElem? hget]
    exact hover j

/-- A pool that is deserted drops its queue. -/
theorem collapse_of_deserted (hdeserted : pool.Deserted) :
    ∃ board, pool.collapse = { pool with queue := .empty, board } :=
  ⟨_, if_pos (pool.deserted_iff.2 hdeserted)⟩

/-- A pool that is not deserted keeps its queue. -/
theorem collapse_of_not_deserted (hkept : ¬pool.Deserted) : pool.collapse = pool :=
  if_neg (mt pool.deserted_iff.1 hkept)

/-- A pool collapses only if it is deserted, and then drops its queue. -/
theorem collapse_eq (pool : Pool β ρ) :
    pool.collapse = pool ∨
      pool.Deserted ∧ ∃ board, pool.collapse = { pool with queue := .empty, board } := by
  by_cases hdeserted : pool.Deserted
  · exact .inr ⟨hdeserted, collapse_of_deserted hdeserted⟩
  · exact .inl (collapse_of_not_deserted hdeserted)

/-- Nobody releases a pool, and nobody waits for its workers, before it is shut down. -/
structure Sealed (pool : Pool β ρ) : Prop where
  released : pool.released = true → pool.shutDown = true
  closing : ∀ i last closing task, pool.stage i = .closing last closing task →
    closing ≠ .begun → pool.shutDown = true

/-- What a single step of worker `i` does. -/
structure Deed (i : Nat) (pool pool' : Pool β ρ) : Prop where
  traffic : ∃ added, pool.Traffic pool' added ((pool.stage i).begun (pool'.stage i))
  shutDown : pool.shutDown = true → pool'.shutDown = true
  released : pool.released = true → pool'.released = true
  unjoined : pool'.unjoined = pool.unjoined ∨ pool'.unjoined = []
  length : pool'.workers.length = pool.workers.length
  /-- A worker that is over takes no step. -/
  active : (pool.stage i).isOver = false
  others : ∀ j, j ≠ i →
    pool'.stage j = pool.stage j ∨ pool.stage j = .parked ∧ pool'.stage j = .awake false
  sealed : pool.Sealed → pool'.Sealed
  /-- A worker exits only where it may take a task but there is none, or where it may not. -/
  exited : pool'.stage i = .exited →
    pool.shutDown = true ∧ (pool.workEnabled = true → pool.queue.toList = [])

section Deed

variable {i : Nat} {worker : Worker β}

/-- A worker changes the pool to `p` and goes on to another stage. -/
theorem deed_setStage {p : Pool β ρ} {worker' : Worker β} {after : Stage β}
    (hget : pool.workers[i]? = some worker) (hactive : worker.stage.isOver = false)
    (hworkers : p.workers = pool.workers)
    (hunjoined : p.unjoined = pool.unjoined ∨ p.unjoined = [])
    (hshut : pool.shutDown = true → p.shutDown = true)
    (hreleased : pool.released = true → p.released = true)
    (hclosed : pool.Sealed → p.released = true → p.shutDown = true)
    (htraffic : ∀ other : Pool β ρ, other.queue = p.queue →
      ∃ added, pool.Traffic other added (worker.stage.begun after))
    (hclosing : pool.Sealed → ∀ last closing task, after = .closing last closing task →
      closing ≠ .begun → p.shutDown = true)
    (hexited : after = .exited →
      pool.shutDown = true ∧ (pool.workEnabled = true → pool.queue.toList = [])) :
    Deed i pool (p.setStage i worker' after) := by
  have hp : p.workers[i]? = some worker := hworkers ▸ hget
  have hself : (p.setStage i worker' after).stage i = after := (stage_setStage hp).1
  have hothers : ∀ j, j ≠ i → (p.setStage i worker' after).stage j = p.stage j :=
    (stage_setStage hp).2
  have hsame : ∀ j, p.stage j = pool.stage j := by
    intro j
    rw [stage, stage, hworkers]
  refine ⟨?_, hshut, hreleased, hunjoined, ?_, ?_, ?_, ?_, ?_⟩
  · rw [hself, stage_of_getElem? hget]
    exact htraffic _ rfl
  · rw [setStage, List.length_set, hworkers]
  · rwa [stage_of_getElem? hget]
  · exact fun j hj => .inl ((hothers j hj).trans (hsame j))
  · refine fun hsealed => ⟨hclosed hsealed, ?_⟩
    intro j last closing task hstage hne
    by_cases hj : j = i
    · subst hj
      rw [hself] at hstage
      exact hclosing hsealed last closing task hstage hne
    · rw [hothers j hj, hsame] at hstage
      exact hshut (hsealed.closing j last closing task hstage hne)
  · rw [hself]
    exact hexited

/-- A worker changes nothing that concerns the queue and the shutdown, and goes on to another stage
without beginning a task. -/
theorem deed_setStage_same {p : Pool β ρ} {worker' : Worker β} {after : Stage β}
    (hget : pool.workers[i]? = some worker) (hactive : worker.stage.isOver = false)
    (hsame : p.queue = pool.queue ∧ p.shutDown = pool.shutDown ∧
      p.released = pool.released ∧ p.workers = pool.workers)
    (hunjoined : p.unjoined = pool.unjoined ∨ p.unjoined = [])
    (hbegun : worker.stage.begun after = [])
    (hclosing : pool.Sealed → ∀ last closing task, after = .closing last closing task →
      closing ≠ .begun → pool.shutDown = true)
    (hexited : after = .exited →
      pool.shutDown = true ∧ (pool.workEnabled = true → pool.queue.toList = [])) :
    Deed i pool (p.setStage i worker' after) := by
  obtain ⟨hqueue, hshut, hreleased, hworkers⟩ := hsame
  refine deed_setStage hget hactive hworkers hunjoined (fun h => hshut.trans h)
    (fun h => hreleased.trans h) ?_ ?_ ?_ hexited
  · exact fun hsealed h => hshut.trans (hsealed.released (hreleased.symm.trans h))
  · exact fun other hother => ⟨[], hbegun ▸ .same (hother.trans hqueue)⟩
  · exact fun hsealed last closing task hafter hne =>
      hshut.trans (hclosing hsealed last closing task hafter hne)

/-- Waking others is no business of the worker that does it. -/
theorem Deed.stirred {pool'' : Pool β ρ} (hdeed : Deed i pool pool')
    (hbusy : pool'.stage i ≠ .parked) (hstirred : pool'.Stirred pool'')
    (hshut : pool''.shutDown = pool'.shutDown) (hunjoined : pool''.unjoined = pool'.unjoined) :
    Deed i pool pool'' := by
  have hself : pool''.stage i = pool'.stage i :=
    (hstirred.stage i).resolve_right fun hparked => hbusy hparked.1
  refine ⟨?traffic, ?shutDown, ?released, ?unjoined, ?length, hdeed.active, ?others, ?sealed,
    ?exited⟩
  case traffic =>
    obtain ⟨added, htraffic⟩ := hdeed.traffic
    refine ⟨added, ?_⟩
    rw [hself]
    exact htraffic.stirred hstirred
  case shutDown => exact fun h => hshut.trans (hdeed.shutDown h)
  case released => exact fun h => hstirred.released.trans (hdeed.released h)
  case unjoined => exact hunjoined ▸ hdeed.unjoined
  case length => exact hstirred.workers.length_eq.symm.trans hdeed.length
  case others =>
    intro j hj
    obtain h | ⟨hparked, hawake⟩ := hstirred.stage j
    · exact h ▸ hdeed.others j hj
    · refine .inr ⟨?_, hawake⟩
      obtain h | ⟨-, h⟩ := hdeed.others j hj
      · exact h.symm.trans hparked
      · cases h.symm.trans hparked
  case sealed =>
    intro hsealed
    obtain ⟨hreleased, hclosing⟩ := hdeed.sealed hsealed
    refine ⟨fun h => hshut.trans (hreleased (hstirred.released.symm.trans h)), ?_⟩
    intro j last closing task hstage hne
    obtain h | ⟨-, h⟩ := hstirred.stage j
    · exact hshut.trans (hclosing j last closing task (h.symm.trans hstage) hne)
    · cases h.symm.trans hstage
  case exited => exact hself ▸ hdeed.exited

/-- A worker that begins no task may find that it was the last one. -/
theorem Deed.collapse (hdeed : Deed i pool pool')
    (hbegun : (pool.stage i).begun (pool'.stage i) = []) : Deed i pool pool'.collapse := by
  obtain hsame | ⟨hdeserted, board, hcollapse⟩ := pool'.collapse_eq
  · rwa [hsame]
  · rw [hcollapse]
    refine ⟨⟨[], ?_⟩, hdeed.shutDown, hdeed.released, hdeed.unjoined, hdeed.length, hdeed.active,
      hdeed.others,
      fun hsealed => ⟨(hdeed.sealed hsealed).released, (hdeed.sealed hsealed).closing⟩,
      hdeed.exited⟩
    change Traffic pool _ [] ((pool.stage i).begun (pool'.stage i))
    rw [hbegun]
    exact .drop rfl hdeserted

/-- A worker that looks at the queue takes its first task, or finds nothing that it may take. -/
theorem deed_look {draining : Bool} (hget : pool.workers[i]? = some worker)
    (hstage : worker.stage = .awake draining) : Deed i pool (pool.look i worker draining) := by
  have hactive : worker.stage.isOver = false := by rw [hstage]; rfl
  unfold look
  split
  · next task queue hpop =>
    have hpop : pool.queue.pop? = some (task, queue) := by
      split at hpop
      · exact hpop
      · cases hpop
    refine deed_setStage (p := { pool with queue }) hget hactive rfl (.inl rfl) id id
      (fun hsealed => hsealed.released) ?_ (fun _ => nofun) nofun
    rintro ⟨⟩ rfl
    rw [hstage]
    exact ⟨[], .pop hpop⟩
  · next hpop =>
    split
    · next hshut =>
      have hdeed : Deed i pool (pool.setStage i worker .exited) := by
        refine deed_setStage_same hget hactive ⟨rfl, rfl, rfl, rfl⟩ (.inl rfl)
          (Stage.begun_of_underway?_eq_none rfl) (fun _ => nofun) fun _ => ⟨hshut, ?_⟩
        intro henabled
        rw [henabled, Bool.true_or, if_pos rfl] at hpop
        exact Fifo.pop?_eq_none_iff.1 hpop
      refine hdeed.collapse (Stage.begun_of_underway?_eq_none ?_)
      rw [(stage_setStage hget).1]
      rfl
    · exact deed_setStage_same hget hactive ⟨rfl, rfl, rfl, rfl⟩ (.inl rfl)
        (Stage.begun_of_underway?_eq_none rfl) (fun _ => nofun) nofun

/-- A task that ends makes its worker look at the queue again, leave a group first, or die. -/
theorem deed_conclude {task : Task β} (hget : pool.workers[i]? = some worker)
    (hstage : worker.stage = .running task) (outcome : Outcome ρ) :
    Deed i pool (pool.conclude i worker task.audience outcome) := by
  have hactive : worker.stage.isOver = false := by rw [hstage]; rfl
  have hdeed : ∀ (board : Board ρ) (after : Stage β), after.underway? = none → after ≠ .exited →
      Deed i pool ({ pool with board }.setStage i worker after) := by
    intro board after hafter hne
    refine deed_setStage_same hget hactive ⟨rfl, rfl, rfl, rfl⟩ (.inl rfl)
      (Stage.begun_of_underway?_eq_none hafter) ?_ fun h => absurd h hne
    rintro _ last closing task rfl
    cases hafter
  unfold conclude
  split
  · exact hdeed pool.board _ rfl nofun
  · refine (hdeed pool.board .dead rfl nofun).collapse (Stage.begun_of_underway?_eq_none ?_)
    rw [(stage_setStage hget).1]
    rfl
  · exact hdeed _ _ rfl nofun
  · exact hdeed pool.board _ rfl nofun
  · exact hdeed _ _ rfl nofun

section Running

variable {task : Task β} (hget : pool.workers[i]? = some worker)
  (hstage : worker.stage = .running task)

include hget hstage

/-- A task goes on, with another number of owners or another board. -/
theorem deed_continue {p : Pool β ρ} {after : Stage β}
    (hsame : p.queue = pool.queue ∧ p.shutDown = pool.shutDown ∧
      p.released = pool.released ∧ p.workers = pool.workers)
    (hunjoined : p.unjoined = pool.unjoined) (hafter : after.underway?.isSome = true)
    (hclosing : ∀ last closing task, after = .closing last closing task → closing = .begun) :
    Deed i pool (p.setStage i worker after) := by
  refine deed_setStage_same hget (by rw [hstage]; rfl) hsame (.inl hunjoined) ?_ ?_ ?_
  · rw [hstage]
    rfl
  · exact fun _ last closing task h hne => absurd (hclosing last closing task h) hne
  · rintro rfl
    cases hafter

theorem deed_run {p : Pool β ρ} {task' : Task β}
    (hsame : p.queue = pool.queue ∧ p.shutDown = pool.shutDown ∧
      p.released = pool.released ∧ p.workers = pool.workers)
    (hunjoined : p.unjoined = pool.unjoined) :
    Deed i pool (p.setStage i worker (.running task')) :=
  deed_continue hget hstage hsame hunjoined rfl nofun

theorem deed_adoptFrom (task' : Task β) (rest : Bool → β) :
    Deed i pool (pool.adoptFrom i worker task' rest) := by
  unfold adoptFrom
  split <;> exact deed_run hget hstage ⟨rfl, rfl, rfl, rfl⟩ rfl

theorem deed_giveUpFrom (task' : Task β) : Deed i pool (pool.giveUpFrom i worker task') := by
  simp only [giveUpFrom]
  split
  · refine deed_continue hget hstage ⟨rfl, rfl, rfl, rfl⟩ rfl rfl ?_
    rintro _ _ _ ⟨⟩
    rfl
  · exact deed_run hget hstage ⟨rfl, rfl, rfl, rfl⟩ rfl

/-- A task queues another one, unless the pool is shut down. -/
theorem deed_enqueueFrom {p : Pool β ρ}
    (hsame : p.queue = pool.queue ∧ p.shutDown = pool.shutDown ∧
      p.released = pool.released ∧ p.workers = pool.workers)
    (hunjoined : p.unjoined = pool.unjoined) (queued accepted refused : Task β) :
    Deed i pool (p.enqueueFrom i worker queued accepted refused) := by
  obtain ⟨hqueue, hshut, hreleased, hworkers⟩ := hsame
  have hpush : p.shutDown = false → ∀ after : Stage β, after.underway?.isSome = true →
      (∀ last closing task, after ≠ .closing last closing task) →
      Deed i pool ((p.accept queued).setStage i worker after) := by
    intro hopen after hafter hnot
    refine deed_setStage hget (by rw [hstage]; rfl) hworkers (.inl hunjoined)
      (fun h => hshut.trans h) (fun h => hreleased.trans h) ?_ ?_ ?_ ?_
    · exact fun hsealed h => hshut.trans (hsealed.released (hreleased.symm.trans h))
    · intro other hother
      refine ⟨[queued], ?_⟩
      rw [hstage]
      exact .push (hshut.symm.trans hopen) (by rw [hother, ← hqueue]; rfl)
    · exact fun _ last closing task h => absurd h (hnot last closing task)
    · rintro rfl
      cases hafter
  unfold enqueueFrom
  obtain ⟨-, hoffer⟩ | ⟨hopen, hoffer⟩ := p.offer?_cases queued
  · rw [hoffer]
    exact deed_run hget hstage ⟨hqueue, hshut, hreleased, hworkers⟩ hunjoined
  · rw [hoffer]
    simp only
    split
    · exact hpush hopen _ rfl nofun
    · exact hpush hopen _ rfl nofun

/-- A task that asks for another one has it queued, unless the pool is shut down. -/
theorem deed_askFrom (rest : Reply → β) (request : Request β) :
    Deed i pool (pool.askFrom i worker task rest request) := by
  cases request with
  | execute body owners => exact deed_enqueueFrom hget hstage ⟨rfl, rfl, rfl, rfl⟩ rfl _ _ _
  | submit body owners =>
    exact deed_enqueueFrom (p := { pool with board := pool.board.openHandle.2 }) hget hstage
      ⟨rfl, rfl, rfl, rfl⟩ rfl _ _ _
  | spawnMember group body owners =>
    exact deed_enqueueFrom hget hstage ⟨rfl, rfl, rfl, rfl⟩ rfl _ _ _
  | signalWork => exact deed_continue hget hstage ⟨rfl, rfl, rfl, rfl⟩ rfl rfl nofun
  | signalWait => exact deed_continue hget hstage ⟨rfl, rfl, rfl, rfl⟩ rfl rfl nofun
  | finalize =>
    refine deed_continue hget hstage ⟨rfl, rfl, rfl, rfl⟩ rfl rfl ?_
    rintro _ _ _ ⟨⟩
    rfl

end Running

/-- A worker that goes on after it has closed the pool is not over. -/
theorem collapse_of_not_isOver (hactive : (pool.stage i).isOver = false) :
    pool.collapse = pool := by
  obtain hsame | ⟨hdeserted, -⟩ := pool.collapse_eq
  · exact hsame
  · have hover := hdeserted.2 i
    rw [hactive] at hover
    cases hover

section Closing

variable {last : Bool} {closing : Closing} {task : Task β}

/-- A task goes on after its pool was closed. -/
theorem deed_resumeFrom {p : Pool β ρ} {worker' : Worker β}
    (hget : pool.workers[i]? = some worker)
    (hstage : worker.stage = .closing last closing task) (hclosing : closing ≠ .begun)
    (hsame : p.queue = pool.queue ∧ p.shutDown = pool.shutDown ∧
      p.released = pool.released ∧ p.workers = pool.workers)
    (hunjoined : p.unjoined = pool.unjoined ∨ p.unjoined = []) :
    Deed i pool (p.resumeFrom i worker' last task) := by
  obtain ⟨hqueue, hshut, hreleased, hworkers⟩ := hsame
  have hactive : worker.stage.isOver = false := by rw [hstage]; rfl
  have hbegun : worker.stage.begun (.running task) = [] := by rw [hstage]; rfl
  unfold resumeFrom
  split
  · next hlast =>
    have hrelease : (p.setStage i worker' (.running task)).release =
        Pool.setStage { p with released := true } i worker' (.running task) := by
      have hrunning : (p.setStage i worker' (.running task)).stage i = .running task :=
        (stage_setStage (hworkers ▸ hget : p.workers[i]? = some worker)).1
      exact collapse_of_not_isOver (i := i) (congrArg Stage.isOver hrunning)
    rw [hrelease]
    refine deed_setStage (p := { p with released := true }) hget hactive hworkers hunjoined
      (fun h => hshut.trans h) (fun _ => rfl) ?_ ?_ (fun _ => nofun) nofun
    · intro hsealed _
      refine hshut.trans (hsealed.closing i last closing task ?_ hclosing)
      rw [stage_of_getElem? hget, hstage]
    · exact fun other hother => ⟨[], hbegun ▸ .same (hother.trans hqueue)⟩
  · exact deed_setStage_same hget hactive ⟨hqueue, hshut, hreleased, hworkers⟩ hunjoined hbegun
      (fun _ => nofun) nofun

/-- Others may be woken before or after a worker comes to a stage. -/
theorem wakeAll_setStage (pool : Pool β ρ) (i : Nat) (worker : Worker β) {after : Stage β}
    (hafter : after.isParked = false) :
    pool.wakeAll.setStage i worker after = (pool.setStage i worker after).wakeAll := by
  simp only [setStage, wakeAll, List.map_set]
  rw [Worker.woken, if_neg (by simp [hafter])]

theorem deed_leave {group : GroupId} (hget : pool.workers[i]? = some worker)
    (hstage : worker.stage = .leaving group) (board : Board ρ) :
    Deed i pool ({ pool with board }.setStage i worker (.awake true)) :=
  deed_setStage_same hget (by rw [hstage]; rfl) ⟨rfl, rfl, rfl, rfl⟩ (.inl rfl)
    (Stage.begun_of_underway?_eq_none rfl) (fun _ => nofun) nofun

/-- A worker goes on with its task after it has woken others. -/
theorem deed_wake (hget : pool.workers[i]? = some worker) (hactive : worker.stage.isOver = false)
    (hbegun : worker.stage.begun (.running task) = [])
    (hstirred : (pool.setStage i worker (.running task)).Stirred pool')
    (hshut : pool'.shutDown = pool.shutDown) (hunjoined : pool'.unjoined = pool.unjoined) :
    Deed i pool pool' := by
  have hdeed : Deed i pool (pool.setStage i worker (.running task)) :=
    deed_setStage_same hget hactive ⟨rfl, rfl, rfl, rfl⟩ (.inl rfl) hbegun (fun _ => nofun) nofun
  refine hdeed.stirred ?_ hstirred hshut hunjoined
  rw [(stage_setStage hget).1]
  exact nofun

/-- A worker that closes its pool goes about it as a client does. -/
theorem deed_closeFrom (hget : pool.workers[i]? = some worker)
    (hstage : worker.stage = .closing last closing task)
    (hclose : pool.closeFrom i worker last task closing = some pool') : Deed i pool pool' := by
  have hactive : worker.stage.isOver = false := by rw [hstage]; rfl
  have hfound : pool.stage i = .closing last closing task := by
    rw [stage_of_getElem? hget, hstage]
  have hbegun : ∀ after : Closing, worker.stage.begun (.closing last after task) = [] := by
    intro after
    rw [hstage]
    rfl
  cases closing with
  | begun =>
    cases hclose
    refine deed_setStage (p := pool.beginShutdown) hget hactive rfl (.inl rfl) (fun _ => rfl) id
      (fun _ _ => rfl) (fun other hother => ⟨[], ?_⟩) (fun _ _ _ _ _ _ => rfl) nofun
    rw [hbegun]
    exact .same hother
  | flagged =>
    cases hclose
    rw [wakeAll_setStage _ _ _ rfl]
    refine (deed_setStage_same hget hactive ⟨rfl, rfl, rfl, rfl⟩ (.inl rfl) (hbegun _) ?_
      nofun).stirred ?_ (stirred_wakeAll _) rfl rfl
    · exact fun hsealed _ _ _ _ _ => hsealed.closing i _ _ _ hfound nofun
    · rw [(stage_setStage hget).1]
      exact nofun
  | announced =>
    simp only [closeFrom, takeWorkers] at hclose
    cases hleft : pool.unjoined with
    | nil =>
      rw [hleft] at hclose
      cases hclose
      exact deed_resumeFrom hget hstage nofun ⟨rfl, rfl, rfl, rfl⟩ (.inr rfl)
    | cons j left =>
      rw [hleft] at hclose
      cases hclose
      refine deed_setStage_same (p := { pool with unjoined := [] }) hget hactive
        ⟨rfl, rfl, rfl, rfl⟩ (.inr rfl) (hbegun _) ?_ nofun
      exact fun hsealed _ _ _ _ _ => hsealed.closing i _ _ _ hfound nofun
  | joining left =>
    cases left with
    | nil =>
      cases hclose
      exact deed_resumeFrom hget hstage nofun ⟨rfl, rfl, rfl, rfl⟩ (.inl rfl)
    | cons j left =>
      simp only [closeFrom] at hclose
      split at hclose
      · cases hclose
        refine deed_setStage_same hget hactive ⟨rfl, rfl, rfl, rfl⟩ (.inl rfl) (hbegun _) ?_ nofun
        exact fun hsealed _ _ _ _ _ => hsealed.closing i _ _ _ hfound nofun
      · cases hclose

end Closing

end Deed

end Pool

/-- Whatever the tasks are, a step of a worker is a deed. -/
theorem Worksite.workerStep_deed {B : Body β ε ρ} {choice : Choice} {i : Nat}
    {s s' : Worksite β ε ρ} (hstep : s.workerStep B choice i = some s') :
    Pool.Deed i s.pool s'.pool := by
  unfold workerStep at hstep
  split at hstep
  · cases hstep
  · next worker hget =>
    split at hstep
    · next draining hstage =>
      cases hstep
      exact Pool.deed_look hget hstage
    · next task hstage =>
      split at hstep <;> cases hstep
      · exact Pool.deed_run hget hstage ⟨rfl, rfl, rfl, rfl⟩ rfl
      · exact Pool.deed_adoptFrom hget hstage task _
      · exact Pool.deed_giveUpFrom hget hstage _
      · exact Pool.deed_askFrom hget hstage _ _
      · exact Pool.deed_conclude hget hstage _
    · next task hstage =>
      cases hstep
      refine Pool.deed_wake hget (by rw [hstage]; rfl) (by rw [hstage]; rfl)
        (Pool.stirred_wakeOne _ choice) ?_ ?_
      · simp only [Pool.wakeOne]
        split <;> rfl
      · simp only [Pool.wakeOne]
        split <;> rfl
    · next task hstage =>
      cases hstep
      simp only
      rw [Pool.wakeAll_setStage _ _ _ rfl]
      exact Pool.deed_wake hget (by rw [hstage]; rfl) (by rw [hstage]; rfl)
        (Pool.stirred_wakeAll _) rfl rfl
    · next last closing task hstage =>
      obtain ⟨pool', hclose, rfl⟩ := Option.map_eq_some_iff.1 hstep
      exact Pool.deed_closeFrom hget hstage hclose
    · next group hstage =>
      cases hstep
      exact Pool.deed_leave hget hstage _
    · cases hstep
    · cases hstep
    · cases hstep

end MarkSweep
